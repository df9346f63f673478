import CallBridge.Proofs.Listing
import CallBridge.Session

/-!
# Serving a request

The builder may refuse a request, there may be no memory for the code, and the listing may not be
made; otherwise the code is handed out, listed or quietly. Which of these it is decides what session
the request leaves behind (`Serving`, `serving`). A refusal leaves everything as it was
(`serve_of_refused`), but a listing that cannot be made leaves a thunk registered that nobody gets
(`registry_of_unlisted`). On a host where neither memory nor the disassembler fails, all that the
builder accepts is handed out (`serve_of_built`).
-/

namespace CallBridge

/-- The texts as lines. -/
def unlines (lines : List String) : String :=
  String.join (lines.map (· ++ "\n"))

theorem unlines_append (lines lines' : List String) :
    unlines (lines ++ lines') = unlines lines ++ unlines lines' := by
  rw [unlines, List.map_append, String.join_append]
  rfl

/-! ## Jobs -/

/-- The session after more lines are printed. -/
def Session.printing (session : Session) (lines : List String) : Session :=
  { session with printed := session.printed ++ unlines lines }

theorem Session.printing_nil (session : Session) : session.printing [] = session := by
  simp [printing, unlines]

theorem Session.printing_printing (session : Session) (lines lines' : List String) :
    (session.printing lines).printing lines' = session.printing (lines ++ lines') := by
  simp [printing, unlines_append, String.append_assoc]

/-- The finished code of a stub. -/
def Stub.installed (stub : Stub) (address : Nat) (hcode : stub.code ≠ []) : Installed where
  address
  image := ⟨stub.code, hcode⟩
  frameSize := stub.frameSize

namespace Job

variable {α β : Type} {session after : Session} {job : Job α}

theorem attempt_bind_of_ok {a : α} (h : job.attempt session = (.ok a, after)) (next : α → Job β) :
    (job >>= next).attempt session = (next a).attempt after := by
  change (match job.attempt session with | (r, s) => ExceptT.bindCont next r s) = _
  rw [h]
  rfl

theorem attempt_bind_of_error {e : Error} (h : job.attempt session = (.error e, after))
    (next : α → Job β) : (job >>= next).attempt session = (.error e, after) := by
  change (match job.attempt session with | (r, s) => ExceptT.bindCont next r s) = _
  rw [h]
  rfl

theorem attempt_lift (x : Except Error α) (session : Session) :
    (liftM x : Job α).attempt session = (x, session) := rfl

theorem attempt_get (session : Session) :
    (get : Job Session).attempt session = (.ok session, session) := rfl

theorem attempt_print (lines : List String) (session : Session) :
    (print (unlines lines)).attempt session = (.ok (), session.printing lines) := rfl

theorem attempt_printLine (line : String) (session : Session) :
    (printLine line).attempt session = (.ok (), session.printing [line]) := by
  rw [← attempt_print, unlines, List.map_singleton, String.join_cons, String.join_nil,
    String.append_empty]
  rfl

theorem attempt_printLines (lines : List String) (session : Session) :
    (forM lines printLine : Job Unit).attempt session = (.ok (), session.printing lines) := by
  induction lines generalizing session with
  | nil => rw [Session.printing_nil]; rfl
  | cons line lines ih =>
      rw [List.forM_cons, attempt_bind_of_ok (attempt_printLine line session), ih,
        Session.printing_printing, List.singleton_append]

theorem attempt_printCode_of_error {host : Host} {code : Installed} {e : Error}
    (h : Listing.disassemble host.disassembler code.address code.image.bytes = .error e)
    (session : Session) : (printCode host code).attempt session = (.error e, session) := by
  rw [printCode, h]
  rfl

theorem attempt_printCode_of_ok {host : Host} {code : Installed} {lines : List String}
    (h : Listing.disassemble host.disassembler code.address code.image.bytes = .ok lines)
    (session : Session) :
    (printCode host code).attempt session = (.ok (), session.printing lines) := by
  rw [printCode, h, attempt_bind_of_ok (attempt_lift (.ok lines) session), attempt_printLines]

variable {host : Host} {stub : Stub}

theorem attempt_finish_of_unmapped {reason : String} (hcode : stub.code ≠ [])
    (hmap : host.map session.images = .error reason) :
    (finish host stub).attempt session = (.error (.allocation reason), session) := by
  rw [finish, Image.ofBytes_of_ne_nil hcode, attempt_bind_of_ok (attempt_lift _ session),
    attempt_bind_of_ok (attempt_get session), hmap]
  rfl

theorem attempt_finish_of_mapped {address : Nat} (hcode : stub.code ≠ [])
    (hmap : host.map session.images = .ok address) :
    (finish host stub).attempt session =
      (.ok (stub.installed address hcode), { session with images := session.images + 1 }) := by
  rw [finish, Image.ofBytes_of_ne_nil hcode, attempt_bind_of_ok (attempt_lift _ session),
    attempt_bind_of_ok (attempt_get session), hmap]
  rfl

end Job

/-! ## Code on its way -/

/-- The code of a stub and the size of its frame. -/
def Stub.delivered (stub : Stub) : List Byte × Nat :=
  (stub.code, stub.frameSize)

/-- The same of finished code, wherever it lies. -/
def Installed.delivered (code : Installed) : List Byte × Nat :=
  (code.image.bytes, code.frameSize)

/-- What a request with this outcome has the registry learn. -/
def Request.registration? : Request → Except Error Installed → Option Registration
  | .thunk method, .ok code => some ⟨code.address, code.image.bytes.length, method.handle⟩
  | .thunk _, .error _ | .trampoline .., _ => none

/-- The session in which the code of a request is finished. -/
def Session.holding (session : Session) (request : Request) (code : Installed) : Session where
  images := session.images + 1
  registry := session.registry ++ (request.registration? (.ok code)).toList
  printed := session.printed

/-- What is left to do with finished code. -/
def Request.enroll (request : Request) (code : Installed) : Job Installed :=
  match request with
  | .trampoline .. => pure code
  | .thunk method => do
    Job.register ⟨code.address, code.image.size, method.handle⟩
    return code

theorem attempt_enroll (request : Request) (code : Installed) (session : Session) :
    (request.enroll code).attempt session = (.ok code,
      { session with
        registry := session.registry ++ (request.registration? (.ok code)).toList }) := by
  cases request with
  | trampoline sig stringCtor =>
      rw [Request.registration?, Option.toList_none, List.append_nil]
      rfl
  | thunk method => rfl

/-- The stub that a request is for. -/
def Generator.stub (g : Generator) : Request → Except Error Stub
  | .trampoline sig stringCtor => Trampoline.build sig stringCtor
  | .thunk method => Thunk.build method g.entryPoints

namespace Generator

open Job

variable {g : Generator} {host : Host} {request : Request} {session : Session} {stub : Stub}
  {code : Installed} {e : Error}

/-- No stub is without code, for each returns. -/
theorem code_ne_nil (h : g.stub request = .ok stub) : stub.code ≠ [] := by
  have hlast : ((Listing.chunks stub.code).map Listing.insn?).getLast? = some (some .blr) := by
    cases request with
    | trampoline sig stringCtor => exact (Trampoline.wellFormed_of_build h).last
    | thunk method => exact (Thunk.wellFormed_of_build h).last
  intro hnil
  rw [hnil] at hlast
  cases hlast

theorem create_eq (g : Generator) (host : Host) (request : Request) :
    g.create host request = (do
      let stub ← g.stub request
      let code ← finish host stub
      request.enroll code) := by
  cases request with
  | trampoline sig stringCtor => exact bind_congr fun stub => (bind_pure (finish host stub)).symm
  | thunk method => rfl

theorem create_of_refused (h : g.stub request = .error e) (session : Session) :
    (g.create host request).attempt session = (.error e, session) := by
  rw [create_eq, h]
  rfl

theorem create_of_unmapped {reason : String} (h : g.stub request = .ok stub)
    (hmap : host.map session.images = .error reason) :
    (g.create host request).attempt session = (.error (.allocation reason), session) := by
  rw [create_eq, h, attempt_bind_of_ok (attempt_lift _ session),
    attempt_bind_of_error (attempt_finish_of_unmapped (code_ne_nil h) hmap)]

theorem create_of_mapped {address : Nat} (h : g.stub request = .ok stub)
    (hmap : host.map session.images = .ok address) :
    (g.create host request).attempt session =
      (.ok (stub.installed address (code_ne_nil h)),
        session.holding request (stub.installed address (code_ne_nil h))) := by
  rw [create_eq, h, attempt_bind_of_ok (attempt_lift _ session),
    attempt_bind_of_ok (attempt_finish_of_mapped (code_ne_nil h) hmap), attempt_enroll]
  rfl

theorem announce_of_quiet (hprint : g.printCode = false) (session : Session) :
    (g.announce host request code).attempt session = (.ok (), session) := by
  rw [announce, hprint]
  rfl

theorem announce_of_unlisted (hprint : g.printCode = true)
    (h : Listing.disassemble host.disassembler code.address code.image.bytes = .error e)
    (session : Session) : (g.announce host request code).attempt session =
      (.error e, session.printing [request.heading]) := by
  rw [announce, if_pos hprint, attempt_bind_of_ok (attempt_printLine request.heading session),
    attempt_printCode_of_error h]

theorem announce_of_listed (hprint : g.printCode = true) {lines : List String}
    (h : Listing.disassemble host.disassembler code.address code.image.bytes = .ok lines)
    (session : Session) : (g.announce host request code).attempt session =
      (.ok (), session.printing (request.heading :: lines)) := by
  rw [announce, if_pos hprint, attempt_bind_of_ok (attempt_printLine request.heading session),
    attempt_printCode_of_ok h, Session.printing_printing, List.singleton_append]

/-! ## All ways to end -/

/-- What a request comes to, and the session that it leaves behind. -/
inductive Serving (g : Generator) (host : Host) (request : Request) (before : Session) :
    Except Error Installed → Session → Prop
  /-- The builder refuses. -/
  | refused {e : Error} (hstub : g.stub request = .error e) :
      Serving g host request before (.error e) before
  | unmapped {stub : Stub} {reason : String} (hstub : g.stub request = .ok stub)
      (hmap : host.map before.images = .error reason) :
      Serving g host request before (.error (.allocation reason)) before
  /-- The code is finished, and its heading is printed. -/
  | unlisted {stub : Stub} {code : Installed} {e : Error} (hstub : g.stub request = .ok stub)
      (hcode : code.delivered = stub.delivered) (hmap : host.map before.images = .ok code.address)
      (hprint : g.printCode = true)
      (hlines : Listing.disassemble host.disassembler code.address stub.code = .error e) :
      Serving g host request before (.error e)
        ((before.holding request code).printing [request.heading])
  | listed {stub : Stub} {code : Installed} {lines : List String}
      (hstub : g.stub request = .ok stub) (hcode : code.delivered = stub.delivered)
      (hmap : host.map before.images = .ok code.address) (hprint : g.printCode = true)
      (hlines : Listing.disassemble host.disassembler code.address stub.code = .ok lines) :
      Serving g host request before (.ok code)
        ((before.holding request code).printing (request.heading :: lines))
  | quiet {stub : Stub} {code : Installed} (hstub : g.stub request = .ok stub)
      (hcode : code.delivered = stub.delivered) (hmap : host.map before.images = .ok code.address)
      (hprint : g.printCode = false) :
      Serving g host request before (.ok code) (before.holding request code)

theorem serving (g : Generator) (host : Host) (request : Request) (session : Session) :
    Serving g host request session ((g.serve host request).attempt session).1
      ((g.serve host request).attempt session).2 := by
  cases hstub : g.stub request with
  | error e =>
      rw [serve, attempt_bind_of_error (create_of_refused hstub session)]
      exact .refused hstub
  | ok stub =>
      cases hmap : host.map session.images with
      | error reason =>
          rw [serve, attempt_bind_of_error (create_of_unmapped hstub hmap)]
          exact .unmapped hstub hmap
      | ok address =>
          rw [serve, attempt_bind_of_ok (create_of_mapped hstub hmap)]
          cases hprint : g.printCode with
          | false =>
              rw [attempt_bind_of_ok (announce_of_quiet hprint _)]
              exact .quiet hstub rfl hmap hprint
          | true =>
              cases hlines : Listing.disassemble host.disassembler address stub.code with
              | error e =>
                  rw [attempt_bind_of_error (announce_of_unlisted hprint hlines _)]
                  exact .unlisted hstub rfl hmap hprint hlines
              | ok lines =>
                  rw [attempt_bind_of_ok (announce_of_listed hprint hlines _)]
                  exact .listed hstub rfl hmap hprint hlines

/-- A refusal comes before anything else is done. -/
theorem serve_of_refused (h : g.stub request = .error e) (session : Session) :
    (g.serve host request).attempt session = (.error e, session) := by
  rw [serve, attempt_bind_of_error (create_of_refused h session)]

/-- A listing that cannot be made fails a request whose code is finished, and whose heading is
printed. -/
theorem serve_of_unlisted {address : Nat} (hstub : g.stub request = .ok stub)
    (hmap : host.map session.images = .ok address) (hprint : g.printCode = true)
    (hlines : Listing.disassemble host.disassembler address stub.code = .error e) :
    (g.serve host request).attempt session =
      (.error e, (session.holding request (stub.installed address (code_ne_nil hstub))).printing
        [request.heading]) := by
  rw [serve, attempt_bind_of_ok (create_of_mapped hstub hmap),
    attempt_bind_of_error (announce_of_unlisted hprint hlines _)]

/-- So the registry has been told of a thunk that nobody gets. -/
theorem registry_of_unlisted {method : Method} {address : Nat}
    (hstub : g.stub (.thunk method) = .ok stub) (hmap : host.map session.images = .ok address)
    (hprint : g.printCode = true)
    (hlines : Listing.disassemble host.disassembler address stub.code = .error e) :
    ((g.serve host (.thunk method)).attempt session).2.registry =
      session.registry ++ [⟨address, stub.code.length, method.handle⟩] := by
  rw [serve_of_unlisted hstub hmap hprint hlines]
  rfl

end Generator

/-! ## Hosts that work -/

/-- Neither the mapping of memory nor the disassembler fails. -/
structure Host.Works (host : Host) : Prop where
  maps : ∀ images, ∃ address, host.map images = .ok address
  opens : host.disassembler.opened = .ok ()
  reads : ∀ address chunk, ∃ answer, host.disassembler.read address chunk = .ok answer

theorem Host.Works.exists_lines {host : Host} (h : host.Works) (base : Nat) (code : List Byte) :
    ∃ lines, Listing.disassemble host.disassembler base code = .ok lines := by
  have hline (chunk : List Byte × Nat) :
      ∃ l, Listing.line host.disassembler (base + 4 * chunk.2) chunk.1 = .ok l := by
    obtain ⟨answer, hanswer⟩ := h.reads (base + 4 * chunk.2) chunk.1
    rw [Listing.line, hanswer]
    cases answer <;> exact ⟨_, rfl⟩
  obtain ⟨lines, hlines⟩ := exists_mapM_ok fun chunk (_ : chunk ∈ (Listing.chunks code).zipIdx) =>
    hline chunk
  exact ⟨lines, Listing.disassemble_eq_ok_iff.mpr ⟨h.opens, mapM_eq_ok_iff.mp hlines⟩⟩

/-- Whatever the builder accepts is handed out. -/
theorem Generator.serve_of_built {g : Generator} {host : Host} {request : Request} {stub : Stub}
    (hworks : host.Works) (h : g.stub request = .ok stub) (session : Session) :
    ∃ code lines, code.delivered = stub.delivered ∧
      host.map session.images = .ok code.address ∧ (g.serve host request).attempt session =
        (.ok code, (session.holding request code).printing lines) := by
  -- The builder has accepted, and on such a host the two ways to fail after it are out.
  have hserving := serving g host request session
  generalize (g.serve host request).attempt session = result at hserving
  obtain ⟨outcome, after⟩ := result
  cases hserving with
  | refused hstub => rw [h] at hstub; cases hstub
  | unmapped _ hmap =>
      obtain ⟨address, haddress⟩ := hworks.maps after.images
      rw [haddress] at hmap
      cases hmap
  | @unlisted stub' code e _ _ _ _ hlines =>
      obtain ⟨lines, hlisted⟩ := hworks.exists_lines code.address stub'.code
      rw [hlisted] at hlines
      cases hlines
  | listed hstub hcode hmap =>
      rw [h] at hstub
      cases hstub
      exact ⟨_, _, hcode, hmap, rfl⟩
  | quiet hstub hcode hmap =>
      rw [h] at hstub
      cases hstub
      exact ⟨_, [], hcode, hmap, by rw [Session.printing_nil]; rfl⟩

end CallBridge
