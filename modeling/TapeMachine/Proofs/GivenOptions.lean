import Mathlib.Data.List.Perm.Basic
import TapeMachine.CommandLine
import TapeMachine.Proofs.Results
import TapeMachine.Proofs.SettingsMerge

/-!
# Options that are given

Where every word of a command line gives one option, its value after an equals sign, the words are
read one by one, whatever stands in the values.  What the command line says does not depend on the
order of the words then, as long as no option is given twice.

* `Usage.wordFor`: a word with a value; `splitValue_wordFor`.
* `Usage.Reads`: what a word gives by itself; `Reads.of_value`, `Reads.of_flag`.
* `Usage.read_of_reads`: words that are read one by one; `exists_read_of_perm`: in any order.
-/

namespace TapeMachine

namespace Usage

def wordFor (name value : String) : String := name ++ "=" ++ value

theorem toList_wordFor (name value : String) :
    (wordFor name value).toList = name.toList ++ '=' :: value.toList := by
  rw [wordFor, String.toList_append, String.toList_append, List.append_assoc]
  rfl

theorem splitValue_wordFor {name : String} (h : '=' ∉ name.toList) (value : String) :
    splitValue (wordFor name value) = (name, some value) := by
  have hname : ∀ c ∈ name.toList, decide (c ≠ '=') = true := by
    intro c hc
    exact decide_eq_true fun he => h (he ▸ hc)
  rw [splitValue, toList_wordFor]
  simp only [List.dropWhile_append_of_pos hname, List.takeWhile_append_of_pos hname]
  simp [List.dropWhile, List.takeWhile]

variable {u : Usage} {o : Opt} {name value : String} {word : String}
  {entry : String × List String}

/-! ### Single words -/

/-- The word gives the option its values by itself, whatever stands around it. -/
inductive Reads (u : Usage) (word : String) : String × List String → Prop
  | valued {o : Opt} {text : String} : word ≠ "--" → u.slot word = .ok (.option o (some text)) →
      o.arity ≠ .flag → (valuesOf text).all (isReadable o) = true →
      Reads u word (o.name, valuesOf text)
  | flag {o : Opt} : word ≠ "--" → u.slot word = .ok (.option o none) → o.arity = .flag →
      Reads u word (o.name, [])

theorem slot_of_dashes {cs : List Char} {value? : Option String}
    (h : word.toList = '-' :: '-' :: cs) (hs : splitValue word = (name, value?)) (hc : u.candidates name = [some o]) :
    u.slot word = .ok (.option o value?) := by
  rw [slot, h, hs]
  simp only [hc]

theorem Reads.of_value {cs : List Char} (hd : name.toList = '-' :: '-' :: cs)
    (he : '=' ∉ name.toList) (hc : u.candidates name = [some o]) (hn : o.name = name)
    (hf : o.arity ≠ .flag) (hr : isReadable o value = true) :
    u.Reads (wordFor name value) (name, valuesOf value) := by
  have hword : (wordFor name value).toList = '-' :: '-' :: (cs ++ '=' :: value.toList) := by
    rw [toList_wordFor, hd]
    rfl
  have hdivider : wordFor name value ≠ "--" := by
    intro h
    rw [h] at hword
    simp at hword
  subst hn
  refine .valued hdivider (slot_of_dashes hword (splitValue_wordFor he value) hc) hf ?_
  rw [valuesOf]
  split
  · rfl
  · simpa using hr

theorem Reads.of_flag {c : Char} {cs : List Char} (hd : name.toList = '-' :: '-' :: c :: cs)
    (he : '=' ∉ name.toList) (hc : u.candidates name = [some o]) (hn : o.name = name)
    (hf : o.arity = .flag) : u.Reads name (name, []) := by
  have hsplit : splitValue name = (name, none) := by
    have hdrop : name.toList.dropWhile (· ≠ '=') = [] := by
      rw [List.dropWhile_eq_nil_iff]
      intro c hc
      exact decide_eq_true fun h => he (h ▸ hc)
    rw [splitValue, hdrop]
  have hdivider : name ≠ "--" := by
    rintro rfl
    cases hd
  subst hn
  exact .flag hdivider (slot_of_dashes hd hsplit hc) hf

/-- **A word that gives an option** has one slot, and this is read whatever follows. -/
theorem Reads.exists_slot (h : u.Reads word entry) :
    ∃ slot, word ≠ "--" ∧ u.slot word = .ok slot ∧ ∀ fuel slots a spare,
      u.readFrom (fuel + 1) (slot :: slots) a spare =
        u.readFrom fuel slots { a with values := entry :: a.values } spare := by
  cases h with
  | @valued o text hw hs hf hr =>
    refine ⟨_, hw, hs, fun fuel slots a spare => ?_⟩
    simp only [readFrom, if_neg hf, accept, if_pos hr]
    rfl
  | @flag o hw hs hf =>
    refine ⟨_, hw, hs, fun fuel slots a spare => ?_⟩
    have hvalues : valuesFor o slots = [] := by rw [valuesFor, hf]
    simp only [readFrom, hvalues, hf, ne_eq, not_true_eq_false, false_and, if_false, accept,
      List.all_nil, if_true]
    rfl

/-! ### Whole command lines -/

/-- **Words that give options** are read in order. -/
theorem exists_slots_of_reads {words : List String} {entries : List (String × List String)}
    (h : List.Forall₂ u.Reads words entries) :
    ∃ slots, u.slots words = .ok slots ∧ ∀ a spare,
      u.readFrom slots.length slots a spare =
        .ok ({ a with values := entries.reverse ++ a.values }, spare) := by
  induction h with
  | nil => exact ⟨[], rfl, fun _ _ => rfl⟩
  | @cons word entry words entries hword _ ih =>
    obtain ⟨slots, hslots, hread⟩ := ih
    obtain ⟨slot, hdivider, hslot, hone⟩ := hword.exists_slot
    refine ⟨slot :: slots, ?_, fun a spare => ?_⟩
    · rw [Usage.slots, if_neg hdivider, hslot, hslots]
      rfl
    · rw [List.length_cons, hone, hread, List.reverse_cons, List.append_assoc]
      rfl

theorem read_of_reads {words : List String} {entries : List (String × List String)}
    (h : List.Forall₂ u.Reads words entries)
    (hc : u.isComplete ⟨entries.reverse, none⟩ = true) :
    u.read words = .ok ⟨entries.reverse, none⟩ := by
  obtain ⟨slots, hslots, hread⟩ := exists_slots_of_reads h
  have hall := hread ⟨[], none⟩ false
  rw [List.append_nil] at hall
  rw [read, hslots]
  show (u.readFrom slots.length slots ⟨[], none⟩ false >>= fun x =>
    if (x.2 || !u.isComplete x.1) = true then .error .misuse else .ok x.1) = _
  rw [hall]
  show (if (false || !u.isComplete ⟨entries.reverse, none⟩) = true then _ else _) = _
  rw [hc]
  rfl

/-- **The order of options** does not matter, as long as none is given twice. -/
theorem exists_read_of_perm {words order : List String} {entries : List (String × List String)}
    (hp : words.Perm order) (h : List.Forall₂ u.Reads order entries)
    (hd : (entries.map Prod.fst).Nodup) (hc : u.isComplete ⟨entries, none⟩ = true) :
    ∃ a, u.read words = .ok a ∧ ∀ name, a.values.lookup name = entries.lookup name := by
  obtain ⟨entries', hreads, hperm⟩ := List.perm_comp_forall₂ hp h
  have hsame : entries'.reverse.Perm entries := (List.reverse_perm entries').trans hperm
  have hd' : (entries'.reverse.map Prod.fst).Nodup := (hsame.map Prod.fst).nodup_iff.2 hd
  have hlookup (name : String) : entries'.reverse.lookup name = entries.lookup name :=
    Pairs.lookup_eq_of_perm hsame hd' name
  refine ⟨⟨entries'.reverse, none⟩, read_of_reads hreads ?_, hlookup⟩
  simpa only [isComplete, Arguments.isGiven, hlookup] using hc

end Usage

end TapeMachine
