import CallBridge.Insn.Mnemonics
import CallBridge.Proofs.Acceptance
import CallBridge.Proofs.Assembler
import CallBridge.Proofs.Text
import CallBridge.Proofs.Thunk.Interpretation
import Mathlib.Data.List.Count

/-!
# Stubs as listings

The code of a stub is a well-formed listing (`stubs_well_formed`). Read word by word it is the
instructions of its statements (`insn?_codeOf`), so whatever is counted in the code can be counted
in the statements: each builder returns once, at the very end, and calls where it is meant to. A
disassembler that knows all instructions therefore has a text for every word, and the listing has
one line for each of them, none of which says that a word is invalid.
-/

namespace CallBridge

/-! ## Code read back -/

namespace Listing

theorem chunks_codeOf (insns : List Insn) :
    chunks (codeOf insns) = insns.map fun i => i.encode.bytes := by
  have hwords : codeOf insns = (insns.map Insn.encode).flatMap Word.bytes := by
    rw [List.flatMap_map]
    rfl
  rw [hwords, chunks_flatMap_bytes, List.map_map]
  rfl

/-- Code reads as the instructions that it was made from. -/
theorem insn?_codeOf (insns : List Insn) :
    (chunks (codeOf insns)).map insn? = insns.map some := by
  rw [chunks_codeOf, List.map_map]
  refine List.map_congr_left fun i _ => ?_
  rw [Function.comp_apply, insn?_bytes, Insn.decode?_encode]

/-- The chunks of whole words are the bytes four by four. -/
theorem getElem?_chunks : ∀ {code : List Byte} (i : Nat), 4 * i + 4 ≤ code.length →
    (chunks code)[i]? = some ((code.drop (4 * i)).take 4)
  | a :: b :: c :: d :: rest, 0, _ => rfl
  | a :: b :: c :: d :: rest, i + 1, h => by
      have hrest : 4 * i + 4 ≤ rest.length := by
        simp only [List.length_cons] at h
        omega
      rw [chunks, List.getElem?_cons_succ, getElem?_chunks i hrest]
      rfl
  | [], i, h => by simp at h
  | [_], i, h | [_, _], i, h | [_, _, _], i, h => by
      simp only [List.length_cons, List.length_nil] at h
      omega

/-- Whole words that are all instructions, one return, which is the last of them, and `calls`
calls. -/
structure WellFormed (code : List Byte) (calls : Nat) : Prop where
  aligned : 4 ∣ code.length
  decodes : ∀ chunk ∈ chunks code, ∃ i, insn? chunk = some i
  last : ((chunks code).map insn?).getLast? = some (some .blr)
  returns : ((chunks code).map insn?).count (some .blr) = 1
  calls : ((chunks code).map insn?).count (some .blrl) = calls

theorem wellFormed_codeOf {insns : List Insn} {calls : Nat} (hlast : insns.getLast? = some .blr)
    (hreturns : insns.count .blr = 1) (hcalls : insns.count .blrl = calls) :
    WellFormed (codeOf insns) calls where
  aligned := ⟨_, length_codeOf insns⟩
  decodes := by
    intro chunk hchunk
    have hmem := List.mem_map_of_mem (f := insn?) hchunk
    rw [insn?_codeOf] at hmem
    obtain ⟨i, -, hi⟩ := List.mem_map.mp hmem
    exact ⟨i, hi.symm⟩
  last := by rw [insn?_codeOf, List.getLast?_map, hlast]; rfl
  returns := by
    rw [insn?_codeOf, List.count_map_of_injective _ _ (Option.some_injective _), hreturns]
  calls := by
    rw [insn?_codeOf, List.count_map_of_injective _ _ (Option.some_injective _), hcalls]

/-! ## Lines -/

/-- Every instruction of the code has its line, with its address and its word, and no line says that
a word is invalid. -/
structure Complete (lines : List String) (base : Nat) (code : List Byte) : Prop where
  length : lines.length = code.length / 4
  line : ∀ i < code.length / 4, ∃ text, lines[i]? =
    some (textLine (base + 4 * i) (valueOf ((code.drop (4 * i)).take 4)) text)
  valid : ∀ line ∈ lines, ∀ address word, line ≠ invalidLine address word

theorem length_chunks : ∀ code : List Byte, 4 ∣ code.length →
    (chunks code).length = code.length / 4
  | a :: b :: c :: d :: rest, h => by
      simp only [List.length_cons] at h
      have hrest := length_chunks rest (by omega)
      simp only [chunks, List.length_cons, hrest]
      omega
  | [], _ => rfl
  | [_], h | [_, _], h | [_, _, _], h => by
      simp only [List.length_cons, List.length_nil] at h
      omega

theorem toList_textLine (address word : Nat) (text : String) :
    (textLine address word text).toList =
      Text.hexadecimal 8 address ++
        ':' :: ' ' :: (Text.hexadecimal 8 word ++ ' ' :: ' ' :: text.toList) := by
  simp only [textLine, Text.hex8, toString, String.toList_append, String.toList_ofList,
    List.append_assoc]
  rfl

theorem exists_toList_invalidLine (address word : Nat) :
    ∃ rest, (invalidLine address word).toList =
      Text.hexadecimal 8 address ++ ':' :: ' ' :: '<' :: rest := by
  simp only [invalidLine, Text.hex8, toString, String.toList_append, String.toList_ofList,
    List.append_assoc]
  exact ⟨_, rfl⟩

/-- The address of a line ends at its first colon. -/
theorem dropWhile_address (address : Nat) (rest : List Char) :
    (Text.hexadecimal 8 address ++ ':' :: rest).dropWhile (· != ':') = ':' :: rest := by
  rw [List.dropWhile_append_of_pos]
  · rfl
  · intro c hc
    rw [bne_iff_ne]
    rintro rfl
    exact Text.notMem_hexadecimal (fun d => Nat.digitChar_ne ':' rfl) 8 address hc

/-- After its address a line goes on with digits or with a mark that is none. -/
theorem textLine_ne_invalidLine (address word address' word' : Nat) (text : String) :
    textLine address word text ≠ invalidLine address' word' := by
  intro h
  obtain ⟨rest, hinvalid⟩ := exists_toList_invalidLine address' word'
  obtain ⟨digit, digits, hdigits⟩ := List.exists_cons_of_ne_nil (Text.hexadecimal_ne_nil 8 word)
  have hbehind := congrArg (fun line => line.toList.dropWhile (· != ':')) h
  simp only [toList_textLine, hinvalid, dropWhile_address, hdigits, List.cons_append,
    List.cons.injEq, true_and] at hbehind
  refine Text.notMem_hexadecimal (fun d => Nat.digitChar_ne '<' rfl) 8 word ?_
  rw [hdigits, hbehind.1]
  exact List.mem_cons_self

/-- The disassembler opens, and has a text for every instruction. -/
structure Reads (disassembler : Disassembler) : Prop where
  opens : disassembler.opened = .ok ()
  texts : ∀ address chunk i, insn? chunk = some i →
    ∃ text, disassembler.read address chunk = .ok (some text)

theorem line_of_reads {disassembler : Disassembler} (hreads : Reads disassembler)
    {chunk : List Byte} {i : Insn} (hi : insn? chunk = some i) (address : Nat) :
    ∃ text, line disassembler address chunk = .ok (textLine address (valueOf chunk) text) := by
  obtain ⟨text, htext⟩ := hreads.texts address chunk i hi
  exact ⟨text.text, by rw [line, htext]; rfl⟩

/-- A listing is made line by line, by a disassembler that could be opened. -/
theorem disassemble_eq_ok_iff {disassembler : Disassembler} {base : Nat} {code : List Byte}
    {lines : List String} : disassemble disassembler base code = .ok lines ↔
      disassembler.opened = .ok () ∧
        List.Forall₂ (fun chunk l => line disassembler (base + 4 * chunk.2) chunk.1 = .ok l)
          (chunks code).zipIdx lines := by
  rw [disassemble, bind_eq_ok_iff]
  simp only [mapError_eq_ok_iff, mapM_eq_ok_iff]
  exact ⟨fun ⟨_, hopened, hlines⟩ => ⟨hopened, hlines⟩, fun ⟨hopened, hlines⟩ =>
    ⟨(), hopened, hlines⟩⟩

/-- The line at an index is that of the chunk there. -/
theorem getElem?_of_disassemble {disassembler : Disassembler} {base : Nat} {code : List Byte}
    {lines : List String} (h : disassemble disassembler base code = .ok lines) {i : Nat}
    {chunk : List Byte} (hchunk : (chunks code)[i]? = some chunk) {l : String}
    (hl : line disassembler (base + 4 * i) chunk = .ok l) : lines[i]? = some l := by
  obtain ⟨-, hlines⟩ := disassemble_eq_ok_iff.mp h
  have hzip : (chunks code).zipIdx[i]? = some (chunk, i) := by simp [hchunk]
  obtain ⟨hi, hget⟩ := List.getElem?_eq_some_iff.mp hzip
  have hi' : i < lines.length := hlines.length_eq ▸ hi
  have hline := hlines.get hi hi'
  rw [List.get_eq_getElem, hget, hl] at hline
  rw [List.getElem?_eq_getElem hi', Except.ok.inj hline]
  rfl

theorem WellFormed.complete {code : List Byte} {calls : Nat} (h : WellFormed code calls)
    {disassembler : Disassembler} (hreads : Reads disassembler) (base : Nat) :
    ∃ lines, disassemble disassembler base code = .ok lines ∧ Complete lines base code := by
  have hread : ∀ chunk ∈ (chunks code).zipIdx, ∃ l,
      line disassembler (base + 4 * chunk.2) chunk.1 = .ok l := by
    intro chunk hchunk
    obtain ⟨i, hi⟩ := h.decodes _ (List.fst_mem_of_mem_zipIdx hchunk)
    obtain ⟨text, htext⟩ := line_of_reads hreads hi (base + 4 * chunk.2)
    exact ⟨_, htext⟩
  obtain ⟨lines, hlines⟩ := exists_mapM_ok hread
  have hlisted : disassemble disassembler base code = .ok lines :=
    disassemble_eq_ok_iff.mpr ⟨hreads.opens, mapM_eq_ok_iff.mp hlines⟩
  have hlength : lines.length = code.length / 4 := by
    rw [← (disassemble_eq_ok_iff.mp hlisted).2.length_eq, List.length_zipIdx,
      length_chunks code h.aligned]
  have hline : ∀ i < code.length / 4, ∃ text, lines[i]? =
      some (textLine (base + 4 * i) (valueOf ((code.drop (4 * i)).take 4)) text) := by
    intro i hi
    have hget : (chunks code)[i]? = some ((code.drop (4 * i)).take 4) :=
      getElem?_chunks i (by omega)
    obtain ⟨insn, hinsn⟩ := h.decodes _ (List.mem_of_getElem? hget)
    obtain ⟨text, htext⟩ := line_of_reads hreads hinsn (base + 4 * i)
    exact ⟨text, getElem?_of_disassemble hlisted hget htext⟩
  refine ⟨lines, hlisted, hlength, hline, ?_⟩
  intro l hl address word
  obtain ⟨i, hi, hget⟩ := List.mem_iff_getElem.mp hl
  obtain ⟨text, htext⟩ := hline i (hlength ▸ hi)
  rw [List.getElem?_eq_getElem hi, hget] at htext
  rw [Option.some.inj htext]
  exact textLine_ne_invalidLine _ _ _ _ _

/-- The texts of the program's own listings cover all instructions. -/
theorem reads_disassembler : Reads Insn.disassembler where
  opens := rfl
  texts := by
    intro address chunk i hi
    exact ⟨i.disassembly, by simp [Insn.disassembler, hi]⟩

end Listing

/-! ## Jumps -/

/-- None of the statements jumps. -/
def Straight (code : List Statement) : Prop :=
  .blr ∉ code ∧ .blrl ∉ code

/-- The code makes so many calls, each after a straight piece, and returns after another one. -/
inductive Calls : Nat → List Statement → Prop
  | finish {code : List Statement} (hcode : Straight code) : Calls 0 (code ++ [.blr])
  | call {calls : Nat} {code rest : List Statement} (hcode : Straight code)
      (hrest : Calls calls rest) : Calls (calls + 1) (code ++ .blrl :: rest)

theorem straight_append {code code' : List Statement} :
    Straight (code ++ code') ↔ Straight code ∧ Straight code' := by
  simp only [Straight, List.mem_append, not_or]
  tauto

theorem straight_flatMap {α : Type} {f : α → List Statement} {l : List α}
    (h : ∀ a ∈ l, Straight (f a)) : Straight (l.flatMap f) := by
  simp only [Straight, List.mem_flatMap, not_exists, not_and]
  exact ⟨fun a ha => (h a ha).1, fun a ha => (h a ha).2⟩

/-- A straight piece in front joins the first one. -/
theorem Calls.prepend {calls : Nat} {code rest : List Statement} (hcode : Straight code)
    (hrest : Calls calls rest) : Calls calls (code ++ rest) := by
  cases hrest with
  | finish h =>
      rw [← List.append_assoc]
      exact .finish (straight_append.mpr ⟨hcode, h⟩)
  | call h hlater =>
      rw [← List.append_assoc]
      exact .call (straight_append.mpr ⟨hcode, h⟩) hlater

theorem Calls.count {calls : Nat} {code : List Statement} (h : Calls calls code) :
    code.getLast? = some .blr ∧ code.count .blr = 1 ∧ code.count .blrl = calls := by
  induction h with
  | finish hcode => simp [List.count_eq_zero.mpr hcode.1, List.count_eq_zero.mpr hcode.2]
  | call hcode _ ih =>
      obtain ⟨hlast, hreturns, hcalls⟩ := ih
      refine ⟨?_, ?_, ?_⟩
      · rw [List.getLast?_append, List.getLast?_cons, hlast]
        rfl
      · simp [List.count_eq_zero.mpr hcode.1, hreturns]
      · simp [List.count_eq_zero.mpr hcode.2, hcalls]

/-- A jump is one instruction, and no other statement has it. -/
theorem count_flatMap_unchecked {i : Insn} (hi : i = .blr ∨ i = .blrl) (code : List Statement) :
    (code.flatMap Statement.unchecked).count i = code.count i.statement := by
  induction code with
  | nil => rfl
  | cons s rest ih =>
      have hs : s.unchecked.count i = [s].count i.statement := by
        rcases hi with rfl | rfl <;> cases s <;> rfl
      rw [List.flatMap_cons, List.count_append, ih, hs, ← List.count_append]
      rfl

theorem Calls.wellFormed {calls : Nat} {code : List Statement} (h : Calls calls code) :
    Listing.WellFormed (codeOf (code.flatMap Statement.unchecked)) calls := by
  obtain ⟨hlast, hreturns, hcalls⟩ := h.count
  refine Listing.wellFormed_codeOf ?_ ?_ ?_
  · obtain ⟨body, rfl⟩ := List.getLast?_eq_some_iff.mp hlast
    rw [List.flatMap_append, List.getLast?_append]
    rfl
  · rw [count_flatMap_unchecked (.inl rfl)]
    exact hreturns
  · rw [count_flatMap_unchecked (.inr rfl)]
    exact hcalls

/-! ## Stubs -/

theorem straight_frameEntry (frameSize : Nat) : Straight (frameEntry frameSize) := by
  simp [Straight, frameEntry]

theorem straight_restoreCaller : Straight Machine.restoreCaller := by
  simp [Straight, Machine.restoreCaller]

namespace Trampoline

theorem straight_loadArg (offset : Nat) (location : Location) :
    Straight (loadArg offset location) := by
  cases location <;> simp [Straight, loadArg]

theorem straight_storeResult (layout : TrampolineLayout) : Straight (storeResult layout) := by
  unfold storeResult
  cases layout.ret <;> simp [Straight]

/-- A trampoline makes one call, that of its callee. -/
theorem calls_statements (layout : TrampolineLayout) : Calls 1 (statements layout) := by
  have hsave : Straight (saveOperands layout) := by simp [Straight, saveOperands]
  have hreceiver : Straight (loadReceiver layout) := by
    unfold loadReceiver
    split <;> simp [Straight]
  have hloads : Straight (loadArgs layout.params) :=
    straight_flatMap fun _ _ => straight_loadArg _ _
  have hlink : Straight [.mtlr 0] := by simp [Straight]
  rw [statements_eq]
  refine .call ?_ (.finish ?_)
  · simp only [callCode, entryCode, straight_append]
    exact ⟨⟨⟨⟨straight_frameEntry _, hsave⟩, hreceiver⟩, hloads⟩, hlink⟩
  · simp only [returnCode, straight_append]
    exact ⟨straight_storeResult layout, straight_restoreCaller⟩

end Trampoline

namespace Thunk

variable {a : Activation}

theorem straight_spillArg (layout : ThunkLayout) (param : PlacedArg) :
    Straight (spillArg layout param) := by
  unfold spillArg
  cases param.location <;> simp [Straight]

theorem straight_loadResult (layout : ThunkLayout) : Straight (loadResult layout) := by
  unfold loadResult
  cases layout.ret <;> simp [Straight]

/-- A conversion call for each argument. -/
theorem calls_convertCode {calls : Nat} {rest : List Statement} (hrest : Calls calls rest)
    (k : Nat) (args : List (Parameter × PlacedArg)) :
    Calls (args.length + calls) (convertCode a k args ++ rest) := by
  induction args generalizing k with
  | nil => simpa [convertCode] using hrest
  | cons arg args ih =>
      rw [convertCode_cons, List.append_assoc, List.cons_append, List.length_cons,
        Nat.add_right_comm]
      exact .call (by simp [Straight, convertSetup]) (ih (k + 1))

/-- A thunk makes a conversion call for every argument, and then the one of the interpreter. -/
theorem calls_code (a : Activation) : Calls (a.args.length + 1) a.code := by
  have hclear : Straight (clearRecord a.method.signature.receiver) := by
    simp [Straight, clearRecord, storeField]
  have hspills : Straight (a.layout.params.flatMap (spillArg a.layout)) :=
    straight_flatMap fun _ _ => straight_spillArg _ _
  have hfill : Straight (fillRecord a.layout a.method.handle) := by
    simp [Straight, fillRecord, storeField]
  have hinterpret : Straight (interpretSetup a) := by simp [Straight, interpretSetup]
  rw [Activation.code_eq]
  refine .prepend ?_ (calls_convertCode (.call hinterpret (.finish ?_)) 0 a.args)
  · simp only [entryCode, straight_append]
    exact ⟨⟨⟨straight_frameEntry _, hclear⟩, hspills⟩, hfill⟩
  · simp only [returnCode, straight_append]
    exact ⟨straight_loadResult _, straight_restoreCaller⟩

end Thunk

/-! ## Every stub -/

theorem Trampoline.wellFormed_of_build {sig : Signature} {stringCtor : Bool} {stub : Stub}
    (h : build sig stringCtor = .ok stub) : Listing.WellFormed stub.code 1 := by
  obtain ⟨layout, cursor, -, hmade⟩ := laid_of_build h
  obtain ⟨-, rfl⟩ := ofStatements_eq_ok_iff.mp hmade
  exact (calls_statements layout).wellFormed

theorem Thunk.wellFormed_of_build {method : Method} {entryPoints : EntryPoints} {stub : Stub}
    (h : build method entryPoints = .ok stub) :
    Listing.WellFormed stub.code (method.signature.params.length + 1) := by
  obtain ⟨layout, hlayout, hmade⟩ := bind_eq_ok_iff.mp h
  obtain ⟨cursor, hlaid⟩ := laid_of_ofSignature (mapError_eq_ok_iff.mp hlayout)
  obtain ⟨-, rfl⟩ := ofStatements_eq_ok_iff.mp hmade
  -- The code is the same whatever machine enters it.
  let a : Activation := { method, entryPoints, layout, entry := Machine.fresh }
  rw [← hlaid.length_args (a := a)]
  exact (calls_code a).wellFormed

/-- The code of a stub is whole words, all of them instructions, and returns once, at its end. A
trampoline makes one call, a thunk one for each parameter and one more. A disassembler that has a
text for every instruction lists the code in full, wherever it lies. -/
theorem stubs_well_formed :
    (∀ sig stringCtor stub, Trampoline.build sig stringCtor = .ok stub →
      Listing.WellFormed stub.code 1 ∧
        ∀ disassembler, Listing.Reads disassembler → ∀ base, ∃ lines,
          Listing.disassemble disassembler base stub.code = .ok lines ∧
            Listing.Complete lines base stub.code) ∧
    ∀ method entryPoints stub, Thunk.build method entryPoints = .ok stub →
      Listing.WellFormed stub.code (method.signature.params.length + 1) ∧
        ∀ disassembler, Listing.Reads disassembler → ∀ base, ∃ lines,
          Listing.disassemble disassembler base stub.code = .ok lines ∧
            Listing.Complete lines base stub.code := by
  constructor
  · intro sig stringCtor stub hbuild
    have h := Trampoline.wellFormed_of_build hbuild
    exact ⟨h, fun _ hreads => h.complete hreads⟩
  · intro method entryPoints stub hbuild
    have h := Thunk.wellFormed_of_build hbuild
    exact ⟨h, fun _ hreads => h.complete hreads⟩

theorem stubs_well_formed_mixed :
    (∃ stub, Trampoline.build Trampoline.mixedSignature false = .ok stub ∧
      Listing.WellFormed stub.code 1 ∧
      ∃ lines, Listing.disassemble Insn.disassembler 0x10000 stub.code = .ok lines ∧
        Listing.Complete lines 0x10000 stub.code) ∧
    ∃ stub, Thunk.build ⟨0x00c0ffee, Trampoline.mixedSignature⟩ ⟨0x20000000, 0x20001000⟩ =
        .ok stub ∧
      Listing.WellFormed stub.code 7 ∧
      ∃ lines, Listing.disassemble Insn.disassembler 0x10000 stub.code = .ok lines ∧
        Listing.Complete lines 0x10000 stub.code := by
  obtain ⟨trampoline, htrampoline⟩ := exists_of_isOk
    (show (Trampoline.build Trampoline.mixedSignature false).isOk = true by decide +kernel)
  obtain ⟨thunk, hthunk⟩ := exists_of_isOk
    (show (Thunk.build ⟨0x00c0ffee, Trampoline.mixedSignature⟩ ⟨0x20000000, 0x20001000⟩).isOk = true
      by decide +kernel)
  obtain ⟨hformed, hlisted⟩ := stubs_well_formed.1 _ _ _ htrampoline
  obtain ⟨hformed', hlisted'⟩ := stubs_well_formed.2 _ _ _ hthunk
  exact ⟨⟨trampoline, htrampoline, hformed, hlisted _ Listing.reads_disassembler _⟩, thunk, hthunk,
    hformed', hlisted' _ Listing.reads_disassembler _⟩

end CallBridge
