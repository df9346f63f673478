import CallBridge.Proofs.Serving

/-!
# Registration

Whatever a generator is asked for and in whatever order, on a host that works its registry learns of
every thunk that is handed out once, and of nothing else (`registers_each_thunk_once`). What a
request hands out depends on no earlier one, so a run is its requests served one by one
(`serveAll_served`).
-/

namespace CallBridge

/-- Puts every image on a page of its own. -/
def Host.pages : Host where
  map := fun images => .ok (0x10000 + images * 0x1000)
  disassembler := Insn.disassembler

theorem Host.works_pages : pages.Works where
  maps _ := ⟨_, rfl⟩
  opens := rfl
  reads _ _ := ⟨_, rfl⟩

namespace Generator

variable {g : Generator} {host : Host} {session : Session} {request : Request}

/-! ## One request -/

/-- What it is to serve a request rightly, at any point of a run. -/
structure Served (g : Generator) (host : Host) (request : Request)
    (outcome : Except Error Installed) (before after : Session) : Prop where
  serve : (g.serve host request).attempt before = (outcome, after)
  /-- The outcome is what the builder gives, finished. -/
  built : outcome.map Installed.delivered = (g.stub request).map Stub.delivered
  /-- It lies where the host has put it. -/
  address : ∀ code, outcome = .ok code → host.map before.images = .ok code.address
  /-- A fresh generator with the same entry points does the same. -/
  fresh : ∀ (g' : Generator) (host' : Host), host'.Works → g'.entryPoints = g.entryPoints →
    outcome.map Installed.delivered =
      ((g'.serve host' request).attempt Session.start).1.map Installed.delivered
  registry : after.registry = before.registry ++ (request.registration? outcome).toList
  trampoline : ∀ sig stringCtor, request = .trampoline sig stringCtor →
    after.registry = before.registry
  refused : ∀ e, outcome = .error e → after = before

theorem serve_delivered (hworks : host.Works) (g : Generator) (session : Session)
    (request : Request) : ((g.serve host request).attempt session).1.map Installed.delivered =
      (g.stub request).map Stub.delivered := by
  cases h : g.stub request with
  | error e =>
      rw [serve_of_refused h]
      rfl
  | ok stub =>
      obtain ⟨code, lines, hcode, -, hserve⟩ := serve_of_built hworks h session
      rw [hserve]
      exact congrArg Except.ok hcode

/-- The builders know of a generator its entry points alone. -/
theorem stub_congr {g' : Generator} (h : g'.entryPoints = g.entryPoints) (request : Request) :
    g'.stub request = g.stub request := by
  cases request with
  | trampoline sig stringCtor => rfl
  | thunk method => rw [stub, stub, h]

theorem served (hworks : host.Works) (g : Generator) (session : Session) (request : Request) :
    Served g host request ((g.serve host request).attempt session).1 session
      ((g.serve host request).attempt session).2 := by
  -- A listing prints but hands out nothing else, so the outcome is the builder's on either side.
  have hfresh (g' : Generator) (host' : Host) (hworks' : host'.Works)
      (h : g'.entryPoints = g.entryPoints) :
      ((g.serve host request).attempt session).1.map Installed.delivered =
        ((g'.serve host' request).attempt Session.start).1.map Installed.delivered := by
    rw [serve_delivered hworks, serve_delivered hworks', stub_congr h]
  cases h : g.stub request with
  | error e =>
      have hserve : (g.serve host request).attempt session = (.error e, session) :=
        serve_of_refused h session
      rw [hserve] at hfresh ⊢
      exact {
        serve := hserve
        built := by rw [h]; rfl
        address := fun _ hcode => by cases hcode
        fresh := hfresh
        registry := by cases request <;> exact (List.append_nil _).symm
        trampoline := fun _ _ _ => rfl
        refused := fun _ _ => rfl }
  | ok stub =>
      obtain ⟨code, lines, hcode, hmap, hserve⟩ := serve_of_built hworks h session
      rw [hserve] at hfresh ⊢
      exact {
        serve := hserve
        built := by rw [h]; exact congrArg Except.ok hcode
        address := fun _ hcode => by cases hcode; exact hmap
        fresh := hfresh
        registry := rfl
        trampoline := by rintro sig stringCtor rfl; exact List.append_nil _
        refused := fun _ he => by cases he }

/-! ## Runs -/

theorem serveAll_cons (g : Generator) (host : Host) (session : Session) (request : Request)
    (rest : List Request) :
    g.serveAll host session (request :: rest) =
      (((g.serve host request).attempt session).1 ::
          (g.serveAll host ((g.serve host request).attempt session).2 rest).1,
        (g.serveAll host ((g.serve host request).attempt session).2 rest).2) := rfl

/-- The session that the first requests leave behind. -/
def sessionAfter (g : Generator) (host : Host) (session : Session) (requests : List Request)
    (i : Nat) : Session :=
  (g.serveAll host session (requests.take i)).2

theorem sessionAfter_length (g : Generator) (host : Host) (session : Session)
    (requests : List Request) :
    g.sessionAfter host session requests requests.length =
      (g.serveAll host session requests).2 := by
  rw [sessionAfter, List.take_length]

theorem length_serveAll (g : Generator) (host : Host) (session : Session)
    (requests : List Request) : (g.serveAll host session requests).1.length = requests.length := by
  induction requests generalizing session with
  | nil => rfl
  | cons request rest ih => rw [serveAll_cons, List.length_cons, ih, List.length_cons]

/-- Every request of a run is served in the session that those before it leave behind. -/
theorem serveAll_served (hworks : host.Works) (g : Generator) (session : Session)
    (requests : List Request) (i : Nat) {request : Request}
    (hrequest : requests[i]? = some request) :
    ∃ outcome, (g.serveAll host session requests).1[i]? = some outcome ∧
      Served g host request outcome (g.sessionAfter host session requests i)
        (g.sessionAfter host session requests (i + 1)) := by
  induction requests generalizing session i with
  | nil => cases hrequest
  | cons first rest ih =>
      cases i with
      | zero =>
          cases hrequest
          exact ⟨_, rfl, served hworks g session request⟩
      | succ i => exact ih ((g.serve host first).attempt session).2 i hrequest

theorem serveAll_registry (hworks : host.Works) (g : Generator) (session : Session)
    (requests : List Request) :
    (g.serveAll host session requests).2.registry = session.registry ++
      (requests.zip (g.serveAll host session requests).1).filterMap fun served =>
        served.1.registration? served.2 := by
  induction requests generalizing session with
  | nil => exact (List.append_nil _).symm
  | cons request rest ih =>
      rw [serveAll_cons, ih, (served hworks g session request).registry, List.append_assoc,
        List.zip_cons_cons, List.filterMap_cons]
      cases request.registration? ((g.serve host request).attempt session).1 <;> rfl

/-- As long as neither memory nor the disassembler fails, the registry holds an entry for each thunk
that was handed out, in that order and with its address, its size and its method. The requests may
be any, refused ones among them, and their stubs listed or not. Each comes to what it would with a
fresh generator with the same entry points, and one that fails or asks for a trampoline leaves the
registry as it was. -/
theorem registers_each_thunk_once (host : Host) (hworks : host.Works) (g : Generator)
    (session : Session) (requests : List Request) :
    (g.serveAll host session requests).1.length = requests.length ∧
    (g.serveAll host session requests).2.registry = session.registry ++
      ((requests.zip (g.serveAll host session requests).1).filterMap fun served =>
        served.1.registration? served.2) ∧
    ∀ i request, requests[i]? = some request →
      ∃ outcome, (g.serveAll host session requests).1[i]? = some outcome ∧
        Served g host request outcome (g.sessionAfter host session requests i)
          (g.sessionAfter host session requests (i + 1)) :=
  ⟨length_serveAll g host session requests, serveAll_registry hworks g session requests,
    fun i _ hrequest => serveAll_served hworks g session requests i hrequest⟩

/-- Prints a listing of every stub. -/
def printing : Generator :=
  ⟨Thunk.runtime, true⟩

def quiet : Generator :=
  ⟨Thunk.runtime, false⟩

/-- A trampoline, a thunk that is refused, and one that is not. -/
def mixedRequests : List Request :=
  [.trampoline Trampoline.mixedSignature false, .thunk ⟨7, floatSignature⟩,
    .thunk Thunk.mixedMethod]

theorem registers_each_thunk_once_mixed : ∃ code,
    (printing.serveAll .pages Session.start mixedRequests).1[2]? = some (.ok code) ∧
    (printing.serveAll .pages Session.start mixedRequests).2.registry =
      [⟨code.address, code.image.bytes.length, Thunk.mixedMethod.handle⟩] ∧
    .ok code.delivered = ((quiet.serve .pages (.thunk Thunk.mixedMethod)).attempt
      Session.start).1.map Installed.delivered := by
  obtain ⟨-, -, hserved⟩ :=
    registers_each_thunk_once .pages Host.works_pages printing Session.start mixedRequests
  obtain ⟨trampoline, -, htrampoline⟩ := hserved 0 _ rfl
  obtain ⟨refused, -, hrefused⟩ := hserved 1 _ rfl
  obtain ⟨thunk, hthunk, hlast⟩ := hserved 2 _ rfl
  have hfloat : printing.stub (.thunk ⟨7, floatSignature⟩) =
      .error (.unsupported (.placement 7 .float)) := by decide
  obtain ⟨stub, hstub⟩ := exists_of_isOk
    (show (printing.stub (.thunk Thunk.mixedMethod)).isOk = true by decide +kernel)
  have hbuilt := hlast.built
  rw [hstub] at hbuilt
  cases thunk with
  | error e => cases hbuilt
  | ok code =>
      refine ⟨code, hthunk, ?_, hlast.fresh quiet .pages Host.works_pages rfl⟩
      -- Neither the trampoline nor the refusal has registered anything.
      have hkept : (printing.sessionAfter .pages Session.start mixedRequests 2).registry = [] := by
        have hbuilt' := hrefused.built
        rw [hfloat] at hbuilt'
        cases refused with
        | error e => rw [hrefused.refused e rfl, htrampoline.trampoline _ _ rfl]; rfl
        | ok code' => cases hbuilt'
      rw [← sessionAfter_length]
      exact hlast.registry.trans (by rw [hkept]; rfl)

end Generator

end CallBridge
