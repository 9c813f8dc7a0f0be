import TapeMachine.Proofs.JsonLimits
import TapeMachine.Proofs.LoggedRuns
import TapeMachine.Proofs.WrittenTexts

/-!
# Lines of logs

A log writes each entry as a line.  No entry has a line end in its text, whatever is in it, so that
the entries come back from the bytes: they are decoded, split into lines, and each line is read.

* `RunLog.splitAt_lines`: the lines of entries.
* `RunLog.readLines`: reads lines; `readLines_lines`: the entries that were written.
* `RunRecord.fits_toJson`, `RunRecord.readLines_bytes`: records that were written.
-/

namespace TapeMachine.RunLog

open Text

variable {entries : List Json} {limit nesting : Nat}

/-! ### Lines -/

theorem lines_cons (e : Json) (entries : List Json) :
    lines (e :: entries) = e.render ++ "\n" ++ lines entries := by
  rw [lines, List.map_cons, String.join_cons, ← lines]

theorem toList_lines_cons (e : Json) (entries : List Json) :
    (lines (e :: entries)).toList = e.render.toList ++ '\n' :: (lines entries).toList := by
  have hend : "\n".toList = ['\n'] := rfl
  rw [lines_cons, String.toList_append, String.toList_append, hend, List.append_assoc,
    List.singleton_append]

theorem inLines_lines (h : ∀ e ∈ entries, e.Whole) : ∀ c ∈ (lines entries).toList, Json.InLines c := by
  induction entries with
  | nil => exact List.forall_mem_nil _
  | cons e entries ih =>
    rw [List.forall_mem_cons] at h
    rw [toList_lines_cons, List.forall_mem_append, List.forall_mem_cons]
    exact ⟨fun c hc => .inl (Json.isPlain_render h.1 c hc), .inr rfl, ih h.2⟩

/-- **An entry is one line**, whatever is in it. -/
theorem splitAt_lines (h : ∀ e ∈ entries, e.Whole) :
    splitAt '\n' (lines entries).toList = entries.map (fun e => e.render.toList) ++ [[]] := by
  have hends : ∀ s ∈ entries.map Json.render, '\n' ∉ s.toList :=
    List.forall_mem_map.2 fun e he hc =>
      absurd (Json.isPlain_render (h e he) '\n' hc) (by decide)
  have hsplit := splitAt_join_lines hends
  rwa [List.map_map, List.map_map] at hsplit

/-! ### Reading -/

/-- Reads lines, each with a JSON value; the last one must be ended, too. -/
def readLines (limit nesting : Nat) (bytes : List UInt8) : Option (List Json) := do
  let text ← (decodeUtf8 bytes).toOption
  let pieces := splitAt '\n' text.toList
  if pieces.getLast? = some [] then
    pieces.dropLast.mapM fun line => (Json.readLimited limit nesting (String.ofList line)).toOption
  else none

theorem mapM_toOption_readLimited (h : ∀ e ∈ entries, e.Whole)
    (hf : ∀ e ∈ entries, e.Fits limit nesting) :
    (entries.map fun e => e.render.toList).mapM (fun line =>
      (Json.readLimited limit nesting (String.ofList line)).toOption) = some entries := by
  induction entries with
  | nil => rfl
  | cons e entries ih =>
    rw [List.forall_mem_cons] at h hf
    rw [List.map_cons, List.mapM_cons, String.ofList_toList, Json.readLimited_render hf.1 h.1,
      ih h.2 hf.2]
    rfl

/-- **What is in the lines** is what was written, if the reader takes integers that long and
brackets that deep. -/
theorem readLines_lines (h : ∀ e ∈ entries, e.Whole) (hf : ∀ e ∈ entries, e.Fits limit nesting) :
    readLines limit nesting (encodeUtf8 (lines entries)) = some entries := by
  have hdecode : decodeUtf8 (encodeUtf8 (lines entries)) = .ok (lines entries) :=
    decodeUtf8_encodeUtf8 fun c hc => (inLines_lines h c hc).lt
  rw [readLines, hdecode]
  simp only [Except.toOption, Option.bind_eq_bind, Option.bind_some, splitAt_lines h,
    List.getLast?_concat, if_true, List.dropLast_concat]
  exact mapM_toOption_readLimited h hf

end TapeMachine.RunLog

namespace TapeMachine

/-! ### Records -/

theorem Atom.whole_toJson (a : Atom) : a.toJson.Whole := by
  cases a with
  | blank => exact .null
  | truth b => exact .bool b
  | number n => exact .int n
  | text s => exact .str s

namespace RunRecord

variable {limit room : Nat} {r : RunRecord} {rs : List RunRecord}

theorem exists_members {p : Json → Prop} (hnull : p .null) (hbool : ∀ b, p (.bool b))
    (hstr : ∀ s, p (.str s)) (hsteps : ∀ n ∈ r.steps, p (.int n))
    (hstate : ∀ a ∈ r.finalState, p a.toJson) (htape : p (.arr (r.tape.map cellJson))) :
    ∃ members, r.toJson = .obj members ∧ (members.map Prod.fst).Nodup ∧ ∀ m ∈ members, p m.2 := by
  refine ⟨_, rfl, ?_, List.forall_mem_append.2 ⟨?_, ?_⟩⟩
  · cases r.error with
    | none => simp
    | some e => simp
  · have hs : p ((r.steps.map Json.int).getD .null) := by
      cases hr : r.steps with
      | none => exact hnull
      | some n => exact hsteps n hr
    have hf : p ((r.finalState.map Atom.toJson).getD .null) := by
      cases hr : r.finalState with
      | none => exact hnull
      | some a => exact hstate a hr
    simp only [List.forall_mem_cons]
    exact ⟨hstr _, hs, hbool _, hf, htape, hstr _, List.forall_mem_nil _⟩
  · cases r.error with
    | none => exact List.forall_mem_nil _
    | some e => exact List.forall_mem_singleton.2 (hstr e)

theorem whole_toJson (r : RunRecord) : r.toJson.Whole := by
  have hcell : ∀ cell ∈ r.tape.map cellJson, cell.Whole := by
    refine List.forall_mem_map.2 fun cell _ => ?_
    cases cell with
    | none => exact .null
    | some s => exact .str s
  obtain ⟨members, hr, _, hmembers⟩ := exists_members (r := r) .null .bool .str
    (fun n _ => .int n) (fun a _ => a.whole_toJson) (.arr hcell)
  rw [hr]
  exact .obj hmembers

/-- Only the count of steps and the state can be too long, and no bracket is deep. -/
theorem fits_toJson (hsteps : ∀ n ∈ r.steps, (Nat.toDigits 10 n.natAbs).length ≤ limit)
    (hstate : ∀ a ∈ r.finalState, a.toJson.Fits limit (room + 1)) :
    r.toJson.Fits limit (room + 2) := by
  have hcell : ∀ cell ∈ r.tape.map cellJson, cell.Fits limit room := by
    refine List.forall_mem_map.2 fun cell _ => ?_
    cases cell with
    | none => exact .null
    | some s => exact .str s
  obtain ⟨members, hr, hnames, hmembers⟩ := exists_members (r := r) .null .bool .str
    (fun n hn => .int (hsteps n hn)) hstate (.arr hcell)
  rw [hr]
  exact .obj hnames hmembers

/-- **The bytes of records** are lines that give the records back. -/
theorem readLines_bytes {nesting : Nat} (h : ∀ r ∈ rs, r.toJson.Fits limit nesting) :
    RunLog.readLines limit nesting (bytes rs) = some (rs.map toJson) :=
  RunLog.readLines_lines (List.forall_mem_map.2 fun r _ => r.whole_toJson)
    (List.forall_mem_map.2 h)

end RunRecord

end TapeMachine
