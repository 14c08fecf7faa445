import DirectoryLookup.Proofs.Expression.RoundTrip

/-!
# Where the text of an expression ends

A text that is read as an expression can go on with blanks only, and it cannot stop before its last
character that is no blank.

**Theorem (`ofJson_append`).** With blanks behind it such a text is read as the same expression.
With anything else behind it, or cut before its last token ends, it is refused.

The reader stands behind a complete value with nothing open when the text is used up
(`eq_done_of_result?`). There a blank changes nothing and any other character is refused
(`finish_done`). A number at the end of a text could go on, but an expression is an object. The
second half is the first one turned round: what the text has behind the cut continues the part in
front of it.
-/

namespace DirectoryLookup.Json

instance (text : List Char) : Decidable (IsBlank text) :=
  decidable_of_iff (text.all isSpace = true) List.all_eq_true

/-! ## Behind a value -/

namespace Reader

theorem finish_append (r : Reader) (text more : List Char) :
    r.finish (text ++ more) = (r.run text).bind (·.finish more) := by
  simp [finish, run_append, Option.bind_assoc]

/-- With nothing open, a value that is no number is complete before the text is used up. -/
theorem eq_done_of_result? {r : Reader} {n : Node} (h : r.result? = some n)
    (hn : ∀ digits, n ≠ .number digits) : r = ⟨.done n, []⟩ := by
  obtain ⟨place, opened⟩ := r
  unfold result? at h
  split at h
  · next node hplace hopened =>
    obtain rfl := Option.some.inj h
    exact congrArg₂ Reader.mk hplace hopened
  · split at h
    · exact absurd (Option.some.inj h).symm (hn _)
    · cases h
  · cases h

/-- **Behind the last value only blanks are taken.** -/
theorem finish_done (n : Node) (more : List Char) :
    finish ⟨.done n, []⟩ more = if IsBlank more then some n else none := by
  induction more with
  | nil => rfl
  | cons c more ih =>
    have hblank : IsBlank (c :: more) ↔ isSpace c = true ∧ IsBlank more := List.forall_mem_cons
    rw [finish_cons]
    by_cases hc : isSpace c = true
    · rw [step_space rfl hc, Option.bind_some, ih]
      simp only [hblank, hc, true_and]
    · have hstep : step ⟨.done n, []⟩ c = none := by simp [step, afterValue?, hc]
      rw [hstep, Option.bind_none, if_neg fun h => hc (hblank.1 h).1]

end Reader

/-- **A text goes on with blanks or is refused**, if it writes anything but a number. -/
theorem read?_append {text : List Char} {n : Node} (h : Node.read? text = some n)
    (hn : ∀ digits, n ≠ .number digits) (more : List Char) :
    Node.read? (text ++ more) = if IsBlank more then some n else none := by
  obtain ⟨r, hr, hresult⟩ := Option.bind_eq_some_iff.1 h
  obtain rfl := Reader.eq_done_of_result? hresult hn
  calc Node.read? (text ++ more)
      = (Reader.start.run text).bind (·.finish more) := Reader.finish_append _ text more
    _ = Reader.finish ⟨.done n, []⟩ more := by rw [hr, Option.bind_some]
    _ = _ := Reader.finish_done n more

end DirectoryLookup.Json

namespace DirectoryLookup.Expression

open Json (Node IsBlank read?_append)

/-! ## Behind an expression -/

theorem Spelled.ne_number {e : Expression} {n : Node} (h : Spelled e n) (digits : List Char) :
    n ≠ .number digits := by
  cases h <;> simp

theorem ofJson_of_read?_eq_none {json : String} (h : Node.read? json.toList = none) :
    ofJson json = .error .unsupportedFilter := by
  rw [ofJson, h]
  rfl

theorem ofJson_append_eq {text : String} {e : Expression} (h : ofJson text = .ok e)
    (more : String) :
    ofJson (text ++ more) =
      if IsBlank more.toList then .ok e else .error .unsupportedFilter := by
  obtain ⟨n, hn, hspelled, hle⟩ := ofJson_eq_ok_iff.1 h
  have hread := read?_append hn hspelled.ne_number more.toList
  rw [← String.toList_append] at hread
  by_cases hblank : IsBlank more.toList
  · rw [if_pos hblank] at hread ⊢
    exact ofJson_eq_ok_iff.2 ⟨n, hread, hspelled, hle⟩
  · rw [if_neg hblank] at hread ⊢
    exact ofJson_of_read?_eq_none hread

/-- **The text of an expression goes on with blanks or is refused**, and a part of it that ends
before its last character that is no blank is refused as well. -/
theorem ofJson_append {text : String} {e : Expression} (h : ofJson text = .ok e) :
    (∀ more : String, ofJson (text ++ more) =
      if IsBlank more.toList then .ok e else .error .unsupportedFilter) ∧
    ∀ start rest : String, text = start ++ rest → ¬IsBlank rest.toList →
      ofJson start = .error .unsupportedFilter := by
  refine ⟨ofJson_append_eq h, fun start rest htext hrest => ?_⟩
  cases hstart : ofJson start with
  | ok e' =>
    have hwhole := ofJson_append_eq hstart rest
    rw [← htext, h, if_neg hrest] at hwhole
    cases hwhole
  | error failure => rw [eq_unsupportedFilter_of_ofJson hstart]

/-- A text with a brace and a quote in a string, then blanks and more of it; a cut behind the brace,
in the escape and before the last brace. -/
theorem ofJson_append_cut :
    let e := Expression.not (.equals "sn" "\x7d\"")
    let condition := "\x7b\"not\":\x7b\"equals\":\x7b\"field\":\"sn\",\"value\":\"\x7d"
    let text := condition ++ "\\\"\"\x7d\x7d\x7d"
    ofJson text = .ok e ∧ ofJson (text ++ "\t \r\n") = .ok e ∧
      ofJson (text ++ text) = .error .unsupportedFilter ∧
      ofJson condition = .error .unsupportedFilter ∧
      ofJson (condition ++ "\\") = .error .unsupportedFilter ∧
      ofJson (condition ++ "\\\"\"\x7d\x7d") = .error .unsupportedFilter := by
  intro e condition text
  have htext : ofJson text = .ok e := by
    have hjson : text = e.toJson := by decide +kernel
    rw [hjson, ofJson_toJson_eq, if_pos (by decide)]
  obtain ⟨hmore, hcut⟩ := ofJson_append htext
  exact ⟨htext, (hmore "\t \r\n").trans (if_pos (by decide)),
    (hmore text).trans (if_neg (by decide)), hcut _ "\\\"\"\x7d\x7d\x7d" rfl (by decide),
    hcut _ "\"\"\x7d\x7d\x7d" (by decide +kernel) (by decide),
    hcut _ "\x7d" (by decide +kernel) (by decide)⟩

end DirectoryLookup.Expression
