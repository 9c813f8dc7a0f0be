import TapeMachine.Proofs.Results
import TapeMachine.Proofs.TableInsertion
import TapeMachine.Source

/-!
# The grammar of clauses

The tokens of a source are clauses, each a group, an arrow and a group.  A list of clauses says of a
machine where it starts and which action belongs to a situation: what the last clause on the matter
says.  This file shows that the tokens are read if and only if they are such clauses, and that the
machine that comes out, built by overriding one entry after the other, is what the clauses say.

* `AreClauses`: the tokens that a list of clauses is written as.
* `readAll_eq_ok_iff`: the clauses that are read are those that are written.
* `IsLast`: the last item of a list with a property.
* `Machine.Denoted`: what a list of clauses says of a machine.
* `ofTokens_denoted`: reading tokens gives the machine that their clauses denote.
-/

namespace TapeMachine

/-! ### Written clauses -/

inductive IsSymbol (read : SymbolReader) : Field → Atom → Prop
  | blank : IsSymbol read none .blank
  | text {text : String} {a : Atom} : read text = .ok a → IsSymbol read (some text) a

/-- `IsClause read cause effect c`: the fields of the two groups are those of the clause `c`. -/
inductive IsClause (read : SymbolReader) : List Field → List Field → Clause → Prop
  | start {text : String} {q : Atom} :
      readState text = .ok q → IsClause read [] [some text] (.start q)
  | rule {state newState move : String} {symbol newSymbol : Field} {q x r y : Atom} {d : Move} :
      readState state = .ok q → IsSymbol read symbol x →
      readState newState = .ok r → IsSymbol read newSymbol y → Move.read? move = some d →
      IsClause read [some state, symbol] [some newState, newSymbol, some move]
        (.rule ⟨⟨q, x⟩, ⟨r, y, d⟩⟩)

inductive AreClauses (read : SymbolReader) : List Token → List Clause → Prop
  | nil : AreClauses read [] []
  | cons {cause effect : List Field} {c : Clause} {ts : List Token} {cs : List Clause} :
      IsClause read cause effect c → AreClauses read ts cs →
      AreClauses read (.group cause :: .arrow :: .group effect :: ts) (c :: cs)

section Reading

variable {read : SymbolReader} {f : Field} {cause effect : List Field} {c : Clause}
  {ts : List Token} {cs : List Clause}

theorem stateField_eq_ok_iff {q : Atom} :
    stateField f = .ok q ↔ ∃ text, f = some text ∧ readState text = .ok q := by
  cases f with
  | none => simp [stateField]
  | some text => cases h : readState text <;> simp [stateField, h]

theorem symbolField_eq_ok_iff {a : Atom} : symbolField read f = .ok a ↔ IsSymbol read f a := by
  cases f with
  | none =>
    constructor
    · intro h
      cases h
      exact .blank
    · rintro ⟨⟩
      rfl
  | some text =>
    cases h : read text with
    | error fault =>
      constructor
      · intro hs
        simp [symbolField, h] at hs
      · rintro (_ | ht)
        rw [h] at ht
        exact nomatch ht
    | ok b =>
      constructor
      · intro hs
        have hab : b = a := by simpa [symbolField, h] using hs
        exact .text (hab ▸ h)
      · rintro (_ | ht)
        simp only [symbolField, ht]

theorem moveField_eq_ok_iff {d : Move} :
    moveField f = .ok d ↔ ∃ text, f = some text ∧ Move.read? text = some d := by
  cases f with
  | none => simp [moveField]
  | some text => cases h : Move.read? text <;> simp [moveField, h]

theorem IsClause.read_eq (h : IsClause read cause effect c) :
    Clause.read read cause effect = .ok c := by
  cases h with
  | start hq =>
    have hs := stateField_eq_ok_iff.2 ⟨_, rfl, hq⟩
    rw [Clause.read, hs]
    rfl
  | rule hq hx hr hy hd =>
    rw [Clause.read, stateField_eq_ok_iff.2 ⟨_, rfl, hq⟩, symbolField_eq_ok_iff.2 hx,
      stateField_eq_ok_iff.2 ⟨_, rfl, hr⟩, symbolField_eq_ok_iff.2 hy,
      moveField_eq_ok_iff.2 ⟨_, rfl, hd⟩]
    rfl

theorem isClause_of_read (h : Clause.read read cause effect = .ok c) :
    IsClause read cause effect c := by
  unfold Clause.read at h
  split at h
  · exact nomatch h
  · obtain ⟨q, hq, rfl⟩ := map_eq_ok_iff.1 h
    obtain ⟨text, ht, hr⟩ := stateField_eq_ok_iff.1 hq
    cases ht
    exact .start hr
  · simp only [bind_eq_ok_iff] at h
    obtain ⟨q, hq, x, hx, r, hr, y, hy, d, hd, hc⟩ := h
    obtain ⟨_, rfl, hq'⟩ := stateField_eq_ok_iff.1 hq
    obtain ⟨_, rfl, hr'⟩ := stateField_eq_ok_iff.1 hr
    obtain ⟨_, rfl, hd'⟩ := moveField_eq_ok_iff.1 hd
    cases hc
    exact .rule hq' (symbolField_eq_ok_iff.1 hx) hr' (symbolField_eq_ok_iff.1 hy) hd'
  · exact nomatch h

theorem AreClauses.readAll_eq (h : AreClauses read ts cs) : Clause.readAll read ts = .ok cs := by
  induction h with
  | nil => rfl
  | cons hc _ ih =>
    rw [Clause.readAll, hc.read_eq, ih]
    rfl

theorem areClauses_of_readAll (h : Clause.readAll read ts = .ok cs) : AreClauses read ts cs := by
  fun_induction Clause.readAll read ts generalizing cs with
  | case1 =>
    cases h
    exact .nil
  | case7 cause effect tokens ih =>
    rw [bind_eq_ok_iff] at h
    obtain ⟨c, hc, h⟩ := h
    rw [bind_eq_ok_iff] at h
    obtain ⟨cs', hcs, h⟩ := h
    cases h
    exact .cons (isClause_of_read hc) (ih hcs)
  | _ => exact nomatch h

/-- **The clauses that are read are those that are written.** -/
theorem readAll_eq_ok_iff : Clause.readAll read ts = .ok cs ↔ AreClauses read ts cs :=
  ⟨areClauses_of_readAll, AreClauses.readAll_eq⟩

end Reading

/-! ### What clauses say of a machine -/

namespace Clause

def rule? : Clause → Option Rule
  | .start _ => none
  | .rule r => some r

def start? : Clause → Option Atom
  | .start q => some q
  | .rule _ => none

end Clause

/-- The situations that the clauses have rules for, each class of like ones once. -/
def causesOf (clauses : List Clause) : Finset Situation :=
  ((clauses.filterMap Clause.rule?).map fun r => r.situation.canon).toFinset

/-- What a list of clauses says of a machine that has done nothing yet. -/
structure Machine.Denoted (clauses : List Clause) (m : Machine) : Prop where
  tape : m.tape = .empty
  state : m.state = m.start
  start : m.start = (clauses.filterMap Clause.start?).getLast?.getD (.number 0)
  action : ∀ s a, m.table.find? s = some a ↔
    ∃ r, IsLast (Rule.Answers s) r (clauses.filterMap Clause.rule?) ∧ r.action = a
  noAction : ∀ s, m.table.find? s = none ↔ ∀ r ∈ clauses.filterMap Clause.rule?, ¬ r.Answers s
  size : m.table.size = (causesOf clauses).card

theorem foldl_add_eq (clauses : List Clause) :
    clauses.foldl Draft.add .empty =
      ⟨(clauses.filterMap Clause.start?).getLast?.getD (.number 0),
        .ofList (clauses.filterMap Clause.rule?)⟩ := by
  induction clauses using List.reverseRecOn with
  | nil => rfl
  | append_singleton clauses c ih =>
    rw [List.foldl_append, ih, List.filterMap_append, List.filterMap_append]
    cases c with
    | start q =>
      have hs : [Clause.start q].filterMap Clause.start? = [q] := rfl
      have hr : [Clause.start q].filterMap Clause.rule? = [] := rfl
      rw [hs, hr, List.append_nil, List.getLast?_concat]
      rfl
    | rule r =>
      have hs : [Clause.rule r].filterMap Clause.start? = [] := rfl
      have hr : [Clause.rule r].filterMap Clause.rule? = [r] := rfl
      rw [hs, hr, List.append_nil, Table.ofList_concat]
      rfl

theorem Machine.ofClauses_start_cons (q : Atom) (rules : List Rule) :
    Machine.ofClauses (.start q :: rules.map Clause.rule) = .new .empty q (.ofList rules) := by
  have hs : (Clause.start q :: rules.map Clause.rule).filterMap Clause.start? = [q] := by
    have hn : (rules.map Clause.rule).filterMap Clause.start? = [] := by
      rw [List.filterMap_map]
      exact List.filterMap_eq_nil_iff.2 fun _ _ => rfl
    exact congrArg (q :: ·) hn
  have hr : (Clause.start q :: rules.map Clause.rule).filterMap Clause.rule? = rules :=
    List.filterMap_map.trans List.filterMap_some
  rw [Machine.ofClauses, foldl_add_eq, hs, hr]
  rfl

theorem Machine.table_ofClauses (clauses : List Clause) :
    (Machine.ofClauses clauses).table = .ofList (clauses.filterMap Clause.rule?) := by
  rw [Machine.ofClauses, foldl_add_eq]
  rfl

theorem Machine.denoted_ofClauses (clauses : List Clause) :
    (Machine.ofClauses clauses).Denoted clauses := by
  have ht := Machine.table_ofClauses clauses
  refine ⟨rfl, rfl, ?_, fun s a => ?_, fun s => ?_, ?_⟩
  · rw [Machine.ofClauses, foldl_add_eq]
    rfl
  · rw [ht, Table.find?_ofList_eq_some_iff]
  · rw [ht, Table.find?_ofList_eq_none_iff]
  · rw [ht, Table.size_ofList, causesOf]

/-- **Reading tokens gives the machine that their clauses denote.**  Whatever reads the symbols, and
whether it is a kind that was asked for or not, tokens are read if and only if they are clauses one
after the other. -/
theorem ofTokens_denoted (read : SymbolReader) (tokens : List Token) :
    ((∃ m, Machine.ofTokens read tokens = .ok m) ↔ ∃ clauses, AreClauses read tokens clauses) ∧
    (∀ m clauses, Machine.ofTokens read tokens = .ok m → AreClauses read tokens clauses →
      m.Denoted clauses) ∧
    (∀ spec : KindSpec, spec.resolve = .ok read →
      spec.machineOfTokens tokens = inSource (Machine.ofTokens read tokens)) := by
  refine ⟨⟨?_, ?_⟩, ?_, ?_⟩
  · rintro ⟨m, hm⟩
    obtain ⟨clauses, hc, _⟩ := map_eq_ok_iff.1 hm
    exact ⟨clauses, readAll_eq_ok_iff.1 hc⟩
  · rintro ⟨clauses, hc⟩
    exact ⟨Machine.ofClauses clauses, map_eq_ok_iff.2 ⟨clauses, readAll_eq_ok_iff.2 hc, rfl⟩⟩
  · intro m clauses hm hc
    obtain ⟨clauses', hc', rfl⟩ := map_eq_ok_iff.1 hm
    rw [readAll_eq_ok_iff.2 hc] at hc'
    cases hc'
    exact Machine.denoted_ofClauses clauses
  · intro spec hs
    exact KindSpec.machineOfTokens_of_resolve hs tokens

/-- The second of two clauses for one situation stays, also if it writes the symbol otherwise. -/
theorem denoted_overridden :
    ∃ m, Machine.ofTokens SymbolKind.number.read
        [.group [some "0", some "1"], .arrow, .group [some "0", none, some "Left"],
          .group [], .arrow, .group [some "7"],
          .group [some "0", some "01"], .arrow, .group [some "1", some "2", some "hold"]] = .ok m ∧
      m.start = .number 7 ∧
      m.table.find? ⟨.number 0, .truth true⟩ = some ⟨.number 1, .number 2, .hold⟩ ∧
      m.table.size = 1 := by
  have hc : AreClauses SymbolKind.number.read
      [.group [some "0", some "1"], .arrow, .group [some "0", none, some "Left"],
        .group [], .arrow, .group [some "7"],
        .group [some "0", some "01"], .arrow, .group [some "1", some "2", some "hold"]]
      [.rule ⟨⟨.number 0, .number 1⟩, ⟨.number 0, .blank, .left⟩⟩, .start (.number 7),
        .rule ⟨⟨.number 0, .number 1⟩, ⟨.number 1, .number 2, .hold⟩⟩] :=
    .cons (.rule (by decide +kernel) (.text (by decide +kernel)) (by decide +kernel) .blank
        (by decide +kernel)) <|
      .cons (.start (by decide +kernel)) <|
        .cons (.rule (by decide +kernel) (.text (by decide +kernel)) (by decide +kernel)
          (.text (by decide +kernel)) (by decide +kernel)) .nil
  obtain ⟨m, hm⟩ := (ofTokens_denoted _ _).1.2 ⟨_, hc⟩
  have hd := (ofTokens_denoted _ _).2.1 m _ hm hc
  have hlast : IsLast (Rule.Answers ⟨.number 0, .truth true⟩)
      ⟨⟨.number 0, .number 1⟩, ⟨.number 1, .number 2, .hold⟩⟩
      [⟨⟨.number 0, .number 1⟩, ⟨.number 0, .blank, .left⟩⟩,
        ⟨⟨.number 0, .number 1⟩, ⟨.number 1, .number 2, .hold⟩⟩] :=
    ⟨[_], [], rfl, rfl, by simp⟩
  exact ⟨m, hm, hd.start, (hd.action _ _).2 ⟨_, hlast, rfl⟩, hd.size⟩

end TapeMachine
