import DirectoryLookup.Proofs.Expression.Spelling
import DirectoryLookup.Proofs.Json.Printing

/-!
# Expressions through JSON and back

Main statement: `ofJson_toJson`. The text of an expression is read back as that expression if its
nesting is within the limit, and refused if not. No text is read as an expression that is nested
more deeply than that, so what was read once can always be written and read again.
-/

namespace DirectoryLookup.Expression

open Json (Node decode writable_ofText read?_compact)

/-! ## The tree that is written -/

theorem toNodes_eq_map (es : List Expression) : toNodes es = es.map toNode := by
  induction es with
  | nil => rw [toNodes, List.map_nil]
  | cons e es ih => rw [toNodes, ih, List.map_cons]

theorem condition_conditionNode (field value : String) :
    Condition field value (conditionNode field value) := by
  refine .members (f := Node.ofText field) (v := Node.ofText value) ?_ rfl ?_ rfl ?_
  · intro m hm
    rcases List.mem_pair.1 hm with rfl | rfl <;> rfl
  · exact Node.text?_ofText field
  · exact Node.text?_ofText value

/-- The tree that is written for an expression stands for it. -/
theorem spelled_toNode (e : Expression) : Spelled e (toNode e) := by
  have parts {es : List Expression} (ih : ∀ e ∈ es, Spelled e (toNode e)) :
      List.Forall₂ Spelled es (toNodes es) := by
    rw [toNodes_eq_map, List.forall₂_map_right_iff, List.forall₂_same]
    exact ih
  cases e with
  | and es =>
    rw [toNode]
    exact .and (by decide) (parts fun e _ => spelled_toNode e)
  | or es =>
    rw [toNode]
    exact .or (by decide) (parts fun e _ => spelled_toNode e)
  | not e =>
    rw [toNode]
    exact .not (by decide) (spelled_toNode e)
  | equals field value =>
    rw [toNode]
    exact .equals (by decide) (condition_conditionNode field value)
  | contains field value =>
    rw [toNode]
    exact .contains (by decide) (condition_conditionNode field value)
termination_by e

theorem writable_tagged {tag : String} (htag : Json.encode tag.toList = tag.toList) {body : Node}
    (h : body.Writable) : (tagged tag body).Writable := by
  refine .object (fun m hm => ?_) (fun m hm => ?_) <;> obtain rfl := List.mem_singleton.1 hm
  · exact Json.raw_of_encode_eq htag
  · exact h

theorem writable_conditionNode (field value : String) : (conditionNode field value).Writable := by
  refine .object (fun m hm => ?_) (fun m hm => ?_)
  · rcases List.mem_pair.1 hm with rfl | rfl <;> exact Json.raw_of_encode_eq rfl
  · rcases List.mem_pair.1 hm with rfl | rfl
    · exact writable_ofText field
    · exact writable_ofText value

theorem writable_toNode (e : Expression) : (toNode e).Writable := by
  have parts {es : List Expression} (ih : ∀ e ∈ es, (toNode e).Writable) :
      (Node.array (toNodes es)).Writable := by
    refine .array fun n hn => ?_
    rw [toNodes_eq_map] at hn
    obtain ⟨e, he, rfl⟩ := List.mem_map.1 hn
    exact ih e he
  cases e with
  | and es =>
    rw [toNode]
    exact writable_tagged (by decide) (parts fun e _ => writable_toNode e)
  | or es =>
    rw [toNode]
    exact writable_tagged (by decide) (parts fun e _ => writable_toNode e)
  | not e =>
    rw [toNode]
    exact writable_tagged (by decide) (writable_toNode e)
  | equals field value =>
    rw [toNode]
    exact writable_tagged (by decide) (writable_conditionNode field value)
  | contains field value =>
    rw [toNode]
    exact writable_tagged (by decide) (writable_conditionNode field value)
termination_by e

/-! ## Reading it back -/

/-- A tree stands for one expression at most: read with levels enough for two, it gives both. -/
theorem Spelled.unique {e e' : Expression} {n : Node} (h : Spelled e n) (h' : Spelled e' n) :
    e = e' := by
  have he := ofNode?_eq_some_iff.2 ⟨h, Nat.le_max_left e.nesting e'.nesting⟩
  have he' := ofNode?_eq_some_iff.2 ⟨h', Nat.le_max_right e.nesting e'.nesting⟩
  exact Option.some.inj (he.symm.trans he')

theorem ofJson_eq_ok_iff {json : String} {e : Expression} :
    ofJson json = .ok e ↔
      ∃ n, Node.read? json.toList = some n ∧ Spelled e n ∧ e.nesting ≤ nestingLimit := by
  rw [ofJson]
  constructor
  · intro h
    split at h
    · next e' he' =>
      obtain rfl := Except.ok.inj h
      obtain ⟨n, hn, h⟩ := Option.bind_eq_some_iff.1 he'
      exact ⟨n, hn, ofNode?_eq_some_iff.1 h⟩
    · cases h
  · rintro ⟨n, hn, h⟩
    rw [hn, Option.bind_some, ofNode?_eq_some_iff.2 h]

/-- A text that is not read as an expression is refused in one way. -/
theorem eq_unsupportedFilter_of_ofJson {json : String} {failure : Failure}
    (h : ofJson json = .error failure) : failure = .unsupportedFilter := by
  rw [ofJson] at h
  split at h
  · cases h
  · exact (Except.error.inj h).symm

/-- What is read from the text of an expression is that expression, and its nesting decides whether
it is read. -/
theorem ofJson_toJson_eq (e : Expression) :
    ofJson e.toJson = if e.nesting ≤ 127 then .ok e else .error .unsupportedFilter := by
  have hread : Node.read? e.toJson.toList = some e.toNode := by
    rw [toJson, String.toList_ofList]
    exact read?_compact (writable_toNode e)
  by_cases h : e.nesting ≤ 127
  · rw [if_pos h]
    exact ofJson_eq_ok_iff.2 ⟨_, hread, spelled_toNode e, h⟩
  · rw [if_neg h]
    cases hjson : ofJson e.toJson with
    | ok e' =>
      obtain ⟨n, hn, hspelled, hle⟩ := ofJson_eq_ok_iff.1 hjson
      obtain rfl := Option.some.inj (hread.symm.trans hn)
      obtain rfl := (spelled_toNode e).unique hspelled
      exact absurd hle h
    | error failure => rw [eq_unsupportedFilter_of_ofJson hjson]

/-- Each negation adds a level. -/
theorem nesting_repeat_not (k : Nat) (e : Expression) :
    (Nat.repeat Expression.not k e).nesting = k + e.nesting := by
  induction k with
  | zero => rw [Nat.repeat, Nat.zero_add]
  | succ k ih =>
    rw [Nat.repeat, nesting, ih]
    omega

/-- **Expressions go through JSON and back up to a nesting of 127 and are refused beyond it.** No
text at all is read as an expression of a deeper nesting, so what has been read is read again from
its own text. -/
theorem ofJson_toJson :
    (∀ e : Expression,
      (e.nesting ≤ 127 → ofJson e.toJson = .ok e) ∧
        (128 ≤ e.nesting → ofJson e.toJson = .error .unsupportedFilter)) ∧
      ∀ (json : String) (e : Expression), ofJson json = .ok e →
        e.nesting ≤ 127 ∧ ofJson e.toJson = .ok e := by
  refine ⟨fun e => ⟨fun h => ?_, fun h => ?_⟩, fun json e h => ?_⟩
  · rw [ofJson_toJson_eq, if_pos h]
  · rw [ofJson_toJson_eq, if_neg (by omega)]
  · obtain ⟨n, -, -, hle⟩ := ofJson_eq_ok_iff.1 h
    have hle : e.nesting ≤ 127 := hle
    exact ⟨hle, by rw [ofJson_toJson_eq, if_pos hle]⟩

/-- The limit is met at 125 negations of a condition, and passed by one more and by a group. -/
theorem ofJson_toJson_at_limit :
    let e := Nat.repeat Expression.not 125 (.equals "\x00" "\"\\")
    e.nesting = 127 ∧ ofJson e.toJson = .ok e ∧
      ofJson (Expression.not e).toJson = .error .unsupportedFilter ∧
      ofJson (Expression.and [.or [], e]).toJson = .error .unsupportedFilter := by
  intro e
  have he : e.nesting = 127 := by
    rw [nesting_repeat_not, nesting]
  have hnot : (Expression.not e).nesting = 128 := by rw [nesting, he]
  have hand : (Expression.and [.or [], e]).nesting = 129 := by
    rw [nesting, nestingOfAll, nestingOfAll, nestingOfAll, he]
    decide
  exact ⟨he, (ofJson_toJson.1 e).1 (Nat.le_of_eq he),
    (ofJson_toJson.1 _).2 (Nat.le_of_eq hnot.symm), (ofJson_toJson.1 _).2 (hand ▸ by decide)⟩

end DirectoryLookup.Expression
