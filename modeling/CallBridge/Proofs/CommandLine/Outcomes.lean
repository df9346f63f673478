import CallBridge.Main
import CallBridge.Proofs.Grammar.Signatures
import CallBridge.Proofs.Serving

/-!
# What the program makes of its arguments

The arguments up to the first separator are flags and words, and all after it are words
(`Divided.ofArgs_eq`). Only which flags are there and what the words spell counts (`perform_congr`),
so it does not matter where a flag stands or how often (`run_congr`). Nothing that was printed is
taken back. But a text that spells no signature and a stub that is refused are found before anything
is printed, so they end with the message alone; on a host that works every other run ends with the
line that tells of the stub (`run_outcomes`).
-/

namespace CallBridge

namespace CommandLine

open Job

namespace Flag

theorem mem_all (flag : Flag) : flag ∈ all := by
  cases flag <;> decide

theorem ofName?_eq_some_iff {arg : String} {flag : Flag} :
    ofName? arg = some flag ↔ arg = flag.name := by
  constructor
  · intro h
    have hname := List.find?_some h
    exact (of_decide_eq_true hname).symm
  · rintro rfl
    cases flag <;> decide

theorem ofName?_eq_none_iff {arg : String} :
    ofName? arg = none ↔ ∀ flag : Flag, arg ≠ flag.name := by
  rw [Option.eq_none_iff_forall_not_mem]
  exact forall_congr' fun flag => not_congr ofName?_eq_some_iff

theorem name_ne_separator (flag : Flag) : flag.name ≠ separator := by
  cases flag <;> decide

end Flag

/-! ## Arguments -/

/-- The arguments before the first separator, and those after it. -/
inductive Divided : List String → List String → List String → Prop
  | cut {before after : List String} (h : separator ∉ before) :
      Divided (before ++ separator :: after) before after
  | whole {args : List String} (h : separator ∉ args) : Divided args args []

/-- The arguments that are not flags. -/
def plain (args : List String) : List String :=
  args.filter fun arg => arg ∉ Flag.all.map Flag.name

/-- The text of the signature: all words, joined by spaces. -/
def textOf (before after : List String) : String :=
  " ".intercalate (plain before ++ after)

variable {args before after lead lead' : List String} {options options' : Options}

theorem plain_eq (args : List String) :
    plain args = args.filter fun arg => (Flag.ofName? arg).isNone := by
  refine List.filter_congr fun arg _ => ?_
  rw [Bool.eq_iff_iff, decide_eq_true_eq, Option.isNone_iff_eq_none, Flag.ofName?_eq_none_iff]
  simp [Flag.mem_all, eq_comm]

theorem plain_nil : plain [] = [] := rfl

theorem plain_append (args args' : List String) :
    plain (args ++ args') = plain args ++ plain args' :=
  List.filter_append ..

theorem plain_cons_name (flag : Flag) (args : List String) :
    plain (flag.name :: args) = plain args :=
  List.filter_cons_of_neg (by simp [Flag.mem_all])

theorem Divided.ofArgs_eq (h : Divided args before after) : Options.ofArgs args =
    { flags := before.filterMap Flag.ofName?, words := plain before ++ after } := by
  cases h with
  | cut h =>
      have hbefore : ∀ arg ∈ before, decide (arg ≠ separator) = true := by
        intro arg harg
        exact decide_eq_true fun heq => h (heq ▸ harg)
      simp only [Options.ofArgs, plain_eq]
      rw [List.takeWhile_append_of_pos hbefore, List.dropWhile_append_of_pos hbefore]
      simp
  | whole h =>
      have hargs : ∀ arg ∈ args, decide (arg ≠ separator) = true := by
        intro arg harg
        exact decide_eq_true fun heq => h (heq ▸ harg)
      simp only [Options.ofArgs, plain_eq]
      rw [List.takeWhile_eq_self_iff.mpr hargs, List.dropWhile_eq_nil_iff.mpr hargs]
      rfl

theorem exists_divided (args : List String) : ∃ before after, Divided args before after := by
  by_cases h : separator ∈ args
  · obtain ⟨before, after, rfl, hbefore⟩ := List.eq_append_cons_of_mem h
    exact ⟨before, after, .cut hbefore⟩
  · exact ⟨args, [], .whole h⟩

theorem Divided.append (hlead : separator ∉ lead) (h : Divided args before after) :
    Divided (lead ++ args) (lead ++ before) after := by
  have hall {other : List String} (hother : separator ∉ other) :
      separator ∉ lead ++ other :=
    fun hmem => (List.mem_append.mp hmem).elim hlead hother
  cases h with
  | cut h =>
      rw [← List.append_assoc]
      exact .cut (hall h)
  | whole h => exact .whole (hall h)

theorem Divided.has_iff (h : Divided args before after) (flag : Flag) :
    (Options.ofArgs args).has flag = true ↔ flag.name ∈ before := by
  rw [h.ofArgs_eq, Options.has, List.contains_iff_mem, List.mem_filterMap]
  constructor
  · rintro ⟨arg, harg, hname⟩
    rwa [← Flag.ofName?_eq_some_iff.mp hname]
  · exact fun hname => ⟨flag.name, hname, Flag.ofName?_eq_some_iff.mpr rfl⟩

/-! ## Flags -/

/-- What is done depends on the flags that are there and on what the text is read as. -/
theorem perform_congr (host : Host) (hflags : ∀ flag, options.has flag = options'.has flag)
    (htext : Signature.ofText options.text = Signature.ofText options'.text) :
    perform host options = perform host options' := by
  simp only [perform, generator, request, printBytes, hflags, htext]

/-- Leading arguments can be replaced by the same ones in another order and number, if the words
among them stay as they are. -/
theorem run_congr (host : Host) (hlead : separator ∉ lead) (hmem : ∀ arg, arg ∈ lead ↔ arg ∈ lead')
    (hwords : plain lead = plain lead') (rest : List String) :
    run host (lead ++ rest) = run host (lead' ++ rest) := by
  obtain ⟨before, after, hrest⟩ := exists_divided rest
  have hdivided := hrest.append hlead
  have hdivided' := hrest.append (mt (hmem separator).mpr hlead)
  have hperform : perform host (Options.ofArgs (lead ++ rest)) =
      perform host (Options.ofArgs (lead' ++ rest)) := by
    refine perform_congr host (fun flag => ?_) ?_
    · rw [Bool.eq_iff_iff, hdivided.has_iff, hdivided'.has_iff, List.mem_append, List.mem_append,
        hmem]
    · rw [hdivided.ofArgs_eq, hdivided'.ofArgs_eq, Options.text, Options.text, plain_append,
        plain_append, hwords]
  have hnil : lead ++ rest = [] ↔ lead' ++ rest = [] := by
    simp only [List.eq_nil_iff_forall_not_mem, List.mem_append, hmem]
  rw [run, run, hperform]
  simp only [hnil]

section

variable {front middle : List String}

theorem run_move (host : Host) (flag : Flag) (hfront : separator ∉ front)
    (hmiddle : separator ∉ middle) (rest : List String) :
    run host (front ++ flag.name :: (middle ++ rest)) =
      run host (front ++ (middle ++ flag.name :: rest)) := by
  have hsep : separator ∉ front ++ flag.name :: middle := by
    simp [hfront, hmiddle, flag.name_ne_separator.symm]
  have hmem : ∀ arg, arg ∈ front ++ flag.name :: middle ↔
      arg ∈ front ++ (middle ++ [flag.name]) := by
    simp [or_comm]
  have hwords : plain (front ++ flag.name :: middle) =
      plain (front ++ (middle ++ [flag.name])) := by
    rw [plain_append, plain_append, plain_append, plain_cons_name, plain_cons_name, plain_nil,
      List.append_nil]
  simpa [List.append_assoc] using run_congr host hsep hmem hwords rest

theorem run_repeat (host : Host) (flag : Flag) (hfront : separator ∉ front)
    (hmiddle : separator ∉ middle) (rest : List String) :
    run host (front ++ flag.name :: (middle ++ flag.name :: rest)) =
      run host (front ++ flag.name :: (middle ++ rest)) := by
  have hsep : separator ∉ front ++ flag.name :: (middle ++ [flag.name]) := by
    simp [hfront, hmiddle, flag.name_ne_separator.symm]
  have hmem : ∀ arg, arg ∈ front ++ flag.name :: (middle ++ [flag.name]) ↔
      arg ∈ front ++ flag.name :: middle := by
    intro arg
    simp only [List.mem_append, List.mem_cons, List.not_mem_nil, or_false]
    tauto
  have hwords : plain (front ++ flag.name :: (middle ++ [flag.name])) =
      plain (front ++ flag.name :: middle) := by
    rw [plain_append, plain_append, plain_cons_name, plain_cons_name, plain_append,
      plain_cons_name, plain_nil, List.append_nil]
  simpa [List.append_assoc] using run_congr host hsep hmem hwords rest

end

/-! ## Output -/

/-- What is said of a stub: the length of its code and the size of its frame. -/
def report (stub : Stub) : String :=
  let size := stub.code.length
  let frame := stub.frameSize
  s!"{size} bytes of code, {frame} byte frame"

/-- The report is a single line. -/
theorem newline_notMem_report (stub : Stub) : '\n' ∉ (report stub).toList := by
  have hnumber (n : Nat) : '\n' ∉ Text.decimal n := fun hmem => by
    cases Text.isDigit_of_mem_decimal hmem
  simp only [report, String.toList_append, List.mem_append, Text.toList_toString, not_or]
  exact ⟨⟨⟨hnumber _, by decide⟩, hnumber _⟩, by decide⟩

/-- The stub that the flags before the separator ask for. -/
def selected (before : List String) (sig : Signature) : Except Error Stub :=
  let sig := { sig with pinvoke := Flag.pinvoke.name ∈ before }
  if Flag.thunk.name ∈ before then Thunk.build { handle, signature := sig } entryPoints
  else Trampoline.build sig (Flag.stringCtor.name ∈ before)

variable {sig : Signature} {stub : Stub} {e : Error}

theorem Divided.stub_eq (h : Divided args before after) (sig : Signature) :
    (generator (Options.ofArgs args)).stub (request (Options.ofArgs args) sig) =
      selected before sig := by
  have hhas (flag : Flag) : (Options.ofArgs args).has flag = decide (flag.name ∈ before) :=
    Bool.eq_iff_iff.mpr ((h.has_iff flag).trans decide_eq_true_iff.symm)
  rw [request, selected, hhas, hhas, hhas]
  simp only [decide_eq_true_eq]
  split <;> rfl

theorem exists_lines_bytes (code : List Byte) : ∃ lines, Listing.bytes code = unlines lines := by
  refine ⟨(Listing.chunks code).map fun chunk =>
    ".byte " ++ ",".intercalate (chunk.map fun b => "0x" ++ Text.hexByte b), ?_⟩
  rw [unlines, List.map_map]
  rfl

theorem summary_eq {code : Installed} (hcode : code.delivered = stub.delivered) :
    summary code = report stub := by
  obtain ⟨hbytes, hframe⟩ := Prod.mk.inj hcode
  rw [summary, report, Image.size, hbytes, hframe]

/-- Code is printed as whole lines, or not at all. -/
theorem exists_printBytes (options : Options) (code : Installed) (session : Session) :
    ∃ lines, (printBytes options code).attempt session = (.ok (), session.printing lines) := by
  cases hbytes : options.has .bytes with
  | false => exact ⟨[], by rw [printBytes, hbytes, Session.printing_nil]; rfl⟩
  | true =>
      obtain ⟨lines, hlines⟩ := exists_lines_bytes code.image.bytes
      exact ⟨lines, by rw [printBytes, hbytes, hlines]; rfl⟩

theorem perform_of_malformed {fault : TextFault} (host : Host)
    (h : Signature.ofText options.text = .error fault) (session : Session) :
    (perform host options).attempt session = (.error (.malformed fault), session) := by
  rw [perform, h]
  rfl

/-- A request that fails ends the program. -/
theorem perform_of_unserved {host : Host} {session after : Session}
    (hsig : Signature.ofText options.text = .ok sig)
    (h : ((generator options).serve host (request options sig)).attempt session =
      (.error e, after)) : (perform host options).attempt session = (.error e, after) := by
  rw [perform, hsig, mapError_ok, attempt_bind_of_ok (attempt_lift (.ok sig) session),
    attempt_bind_of_error h]

/-- A stub that was built is reported on the last line. -/
theorem perform_of_built {host : Host} (hworks : host.Works)
    (hsig : Signature.ofText options.text = .ok sig)
    (h : (generator options).stub (request options sig) = .ok stub) (session : Session) :
    ∃ code lines, (perform host options).attempt session =
      (.ok (), (session.holding (request options sig) code).printing (lines ++ [report stub])) := by
  obtain ⟨code, listing, hcode, -, hserve⟩ := Generator.serve_of_built hworks h session
  obtain ⟨bytes, hbytes⟩ := exists_printBytes options code
    ((session.holding (request options sig) code).printing listing)
  refine ⟨code, listing ++ bytes, ?_⟩
  rw [perform, hsig, mapError_ok, attempt_bind_of_ok (attempt_lift (.ok sig) session),
    attempt_bind_of_ok hserve, attempt_bind_of_ok hbytes, attempt_printLine, summary_eq hcode,
    Session.printing_printing, Session.printing_printing, List.append_assoc]

/-! ## Outcomes -/

/-- The run reports the error, and has printed nothing. -/
structure Outcome.FailsWith (outcome : Outcome) (e : Error) : Prop where
  exitCode : outcome.exitCode = 1
  stdout : outcome.stdout = ""
  stderr : outcome.stderr = "tramp: " ++ e.message ++ "\n"

theorem run_of_error {host : Host} {session : Session} (hne : args ≠ [])
    (h : (perform host (Options.ofArgs args)).attempt Session.start = (.error e, session)) :
    run host args = ⟨1, session.printed, "tramp: " ++ e.message ++ "\n"⟩ := by
  rw [run, if_neg hne, h]
  rfl

theorem run_of_ok {host : Host} {session : Session} (hne : args ≠ [])
    (h : (perform host (Options.ofArgs args)).attempt Session.start = (.ok (), session)) :
    run host args = ⟨0, session.printed, ""⟩ := by
  rw [run, if_neg hne, h]

theorem failsWith_of_error {host : Host} (hne : args ≠ [])
    (h : (perform host (Options.ofArgs args)).attempt Session.start = (.error e, Session.start)) :
    (run host args).FailsWith e := by
  rw [run_of_error hne h]
  exact ⟨rfl, rfl, rfl⟩

theorem Divided.text_eq (h : Divided args before after) :
    (Options.ofArgs args).text = textOf before after := by
  rw [h.ofArgs_eq, Options.text, textOf]

theorem run_of_built {host : Host} (hworks : host.Works) (hne : args ≠ [])
    (h : Divided args before after) (hsig : Signature.ofText (textOf before after) = .ok sig)
    (hstub : selected before sig = .ok stub) :
    ∃ lines, run host args = ⟨0, unlines (lines ++ [report stub]), ""⟩ := by
  rw [← h.text_eq] at hsig
  rw [← h.stub_eq] at hstub
  obtain ⟨code, lines, hperform⟩ := perform_of_built hworks hsig hstub Session.start
  refine ⟨lines, (run_of_ok hne hperform).trans ?_⟩
  rw [Session.printing, Session.holding, Session.start, String.empty_append]

theorem failsWith_of_malformed {fault : TextFault} (host : Host) (hne : args ≠ [])
    (h : Divided args before after)
    (hfault : Signature.ofText (textOf before after) = .error fault) :
    (run host args).FailsWith (.malformed fault) := by
  rw [← h.text_eq] at hfault
  exact failsWith_of_error hne (perform_of_malformed host hfault Session.start)

theorem failsWith_of_refused (host : Host) (hne : args ≠ []) (h : Divided args before after)
    (hsig : Signature.ofText (textOf before after) = .ok sig)
    (hstub : selected before sig = .error e) : (run host args).FailsWith e := by
  rw [← h.text_eq] at hsig
  rw [← h.stub_eq] at hstub
  exact failsWith_of_error hne
    (perform_of_unserved hsig (Generator.serve_of_refused hstub Session.start))

/-- Where a listing is asked for and cannot be made, its heading is printed nevertheless. -/
theorem run_of_unlisted {host : Host} {address : Nat} (hne : args ≠ [])
    (h : Divided args before after) (hsig : Signature.ofText (textOf before after) = .ok sig)
    (hstub : selected before sig = .ok stub) (hprint : Flag.printCode.name ∈ before)
    (hmap : host.map 0 = .ok address)
    (hlines : Listing.disassemble host.disassembler address stub.code = .error e) :
    run host args = ⟨1, unlines [(request (Options.ofArgs args) sig).heading],
      "tramp: " ++ e.message ++ "\n"⟩ := by
  rw [← h.text_eq] at hsig
  rw [← h.stub_eq] at hstub
  rw [run_of_error hne (perform_of_unserved hsig
    (Generator.serve_of_unlisted hstub hmap ((h.has_iff .printCode).mpr hprint) hlines)),
    Session.printing, Session.holding, Session.start, String.empty_append]

/-- A run succeeds exactly if the text spells a signature and the selected stub is built. -/
theorem exitCode_eq_zero_iff {host : Host} (hworks : host.Works) (hne : args ≠ [])
    (h : Divided args before after) :
    (run host args).exitCode = 0 ↔ ∃ sig stub,
      Signature.ofText (textOf before after) = .ok sig ∧
        selected before sig = .ok stub := by
  constructor
  · intro hexit
    cases hsig : Signature.ofText (textOf before after) with
    | error fault =>
        rw [(failsWith_of_malformed host hne h hsig).exitCode] at hexit
        cases hexit
    | ok sig =>
        cases hstub : selected before sig with
        | error e =>
            rw [(failsWith_of_refused host hne h hsig hstub).exitCode] at hexit
            cases hexit
        | ok stub => exact ⟨sig, stub, rfl, hstub⟩
  · rintro ⟨sig, stub, hsig, hstub⟩
    obtain ⟨lines, hrun⟩ := run_of_built hworks hne h hsig hstub
    rw [hrun]

/-- On any host, where a flag stands before the first separator makes no difference, nor does having
it again. The arguments are divided at the first separator. Those behind it are words whatever they
are, those in front of it are flags or words, and the words joined by spaces are the signature's
text. If that text spells no signature, or the stub is refused that the flags ask for, the run fails
with the message of what went wrong and prints nothing else. If neither memory nor the disassembler
fails, every other run succeeds, and its last line reports the length of the code and the size of
the frame. -/
theorem run_outcomes :
    (∀ (host : Host) (flag : Flag) (front middle rest : List String), separator ∉ front →
      separator ∉ middle →
      run host (front ++ flag.name :: (middle ++ rest)) =
        run host (front ++ (middle ++ flag.name :: rest)) ∧
      run host (front ++ flag.name :: (middle ++ flag.name :: rest)) =
        run host (front ++ flag.name :: (middle ++ rest))) ∧
    (∀ args, ∃ before after, Divided args before after) ∧
    ∀ args before after, args ≠ [] → Divided args before after →
      (∀ flag, (Options.ofArgs args).has flag = true ↔ flag.name ∈ before) ∧
      (Options.ofArgs args).words = plain before ++ after ∧
      (∀ host fault, Signature.ofText (textOf before after) = .error fault →
        (run host args).FailsWith (.malformed fault)) ∧
      (∀ host sig e, Signature.ofText (textOf before after) = .ok sig →
        selected before sig = .error e → (run host args).FailsWith e) ∧
      ∀ host : Host, host.Works →
        ((run host args).exitCode = 0 ↔ ∃ sig stub,
          Signature.ofText (textOf before after) = .ok sig ∧ selected before sig = .ok stub) ∧
        ∀ sig stub, Signature.ofText (textOf before after) = .ok sig →
          selected before sig = .ok stub → (run host args).stderr = "" ∧
            '\n' ∉ (report stub).toList ∧
            ∃ lines, (run host args).stdout = unlines (lines ++ [report stub]) := by
  refine ⟨fun host flag front middle rest hfront hmiddle => ⟨?_, ?_⟩, exists_divided,
    fun args before after hne h => ⟨h.has_iff, ?_, ?_, ?_, fun host hworks => ⟨?_, ?_⟩⟩⟩
  · exact run_move host flag hfront hmiddle rest
  · exact run_repeat host flag hfront hmiddle rest
  · rw [h.ofArgs_eq]
  · exact fun host fault hfault => failsWith_of_malformed host hne h hfault
  · exact fun host sig e hsig hstub => failsWith_of_refused host hne h hsig hstub
  · exact exitCode_eq_zero_iff hworks hne h
  · intro sig stub hsig hstub
    obtain ⟨lines, hrun⟩ := run_of_built hworks hne h hsig hstub
    rw [hrun]
    exact ⟨rfl, newline_notMem_report stub, lines, rfl⟩

/-- The program's own host works. -/
theorem works_program : Host.program.Works where
  maps _ := ⟨_, rfl⟩
  opens := rfl
  reads _ _ := ⟨_, rfl⟩

/-- Flags on both sides of a word, a flag behind the separator, and a parameter that is refused. -/
theorem run_outcomes_scattered :
    run .program ["--thunk", "i4,", "--bytes", "--", "&object", "->", "bool"] =
      run .program ["i4,", "--bytes", "--thunk", "--", "&object", "->", "bool"] ∧
    run .program ["i4,", "--bytes", "--bytes", "--", "->", "bool"] =
      run .program ["i4,", "--bytes", "--", "->", "bool"] ∧
    (run .program ["--thunk", "i4,", "--bytes", "--", "&object", "->", "bool"]).exitCode = 0 ∧
    (∃ lines stub, selected ["--thunk", "i4,", "--bytes"] (Signature.ofKinds false
        [.primitive .int32, .byRef (.primitive .object)] (.primitive .boolean)) = .ok stub ∧
      (run .program ["--thunk", "i4,", "--bytes", "--", "&object", "->", "bool"]).stdout =
        unlines (lines ++ [report stub])) ∧
    (run .program ["--bytes", "--", "--thunk"]).FailsWith (.malformed (.unknownType "--thunk")) ∧
    (run .program ["vt(8)", "--print-code", "->", "bool"]).FailsWith
      (.unsupported (.valueTypeArgument 0 8)) := by
  obtain ⟨hflags, -, houtcome⟩ := run_outcomes
  obtain ⟨hmove, -⟩ := hflags .program .thunk [] ["i4,", "--bytes"] ["--", "&object", "->", "bool"]
    (by decide) (by decide)
  obtain ⟨-, hrepeat⟩ := hflags .program .bytes ["i4,"] [] ["--", "->", "bool"] (by decide)
    (by decide)
  have hread : Signature.ofText "i4, &object -> bool" = .ok (Signature.ofKinds false
      [.primitive .int32, .byRef (.primitive .object)] (.primitive .boolean)) := by
    decide +kernel
  obtain ⟨stub, hstub⟩ := exists_of_isOk (show (selected ["--thunk", "i4,", "--bytes"]
    (Signature.ofKinds false [.primitive .int32, .byRef (.primitive .object)]
      (.primitive .boolean))).isOk = true by decide +kernel)
  obtain ⟨-, -, -, -, hworking⟩ := houtcome _ ["--thunk", "i4,", "--bytes"]
    ["&object", "->", "bool"] (by decide) (.cut (by decide))
  obtain ⟨hexit, hbuilt⟩ := hworking .program works_program
  obtain ⟨-, -, lines, hlines⟩ := hbuilt _ stub hread hstub
  obtain ⟨-, -, hmalformed, -⟩ := houtcome _ ["--bytes"] ["--thunk"] (by decide) (.cut (by decide))
  obtain ⟨-, -, -, hrefused, -⟩ := houtcome ["vt(8)", "--print-code", "->", "bool"] _ _ (by decide)
    (.whole (by decide))
  refine ⟨hmove, hrepeat, hexit.mpr ⟨_, stub, hread, hstub⟩, ⟨lines, stub, hstub, hlines⟩,
    hmalformed _ _ ?_,
    hrefused _ (Signature.ofKinds false [.valueType 8] (.primitive .boolean)) _ ?_ ?_⟩
  · decide +kernel
  · decide +kernel
  · decide +kernel

end CommandLine

end CallBridge
