import DirectoryLookup.Proofs.Expression.Writing

/-!
# Unknown parts of an expression

A text that writes an expression writes each part of it somewhere. What stands around the part is
told without the part (`Around`), so something else can stand in its place.

**Theorem (`ofJson_around`).** Put an object there that is no expression, because it has no member,
several, or one under a key that is not known, and the whole text is refused.

The object writes a tree that stands for no expression (`Foreign.unspelled`). A negation of such a
tree and a group with such an item stand for none either, and so on outwards to the whole text.
-/

namespace DirectoryLookup.Expression

open Json (IsBlank Node Separated Writes decode encode isBlank_cons isBlank_nil read?_of_writes)

variable {α β : Type}

/-! ## Positions -/

/-- The part of an expression at a position: the numbers of the parts on the way to it, counted from
zero. -/
def part? : Expression → List Nat → Option Expression
  | e, [] => some e
  | not e, 0 :: path => e.part? path
  | and es, i :: path => (es[i]?).bind (part? · path)
  | or es, i :: path => (es[i]?).bind (part? · path)
  | _, _ :: _ => none

/-! ## What stands around a part -/

/-- What stands around the body of an object with one member. -/
inductive AroundBody (tag : String) : List Char → List Char → Prop
  | mk {before key gap space after : List Char} :
      IsBlank before → WritesText tag key → IsBlank gap → IsBlank space → IsBlank after →
      AroundBody tag ('{' :: (before ++ key ++ gap ++ ':' :: space)) (after ++ ['}'])

/-- What stands between the bracket that opens an array and the text of an item. -/
inductive Leading (R : α → List Char → Prop) : List α → List Char → Prop
  | blank {before : List Char} : IsBlank before → Leading R [] before
  | item {a : α} {as : List α} {before text after rest : List Char} :
      IsBlank before → R a text → IsBlank after → Leading R as rest →
      Leading R (a :: as) (before ++ text ++ after ++ ',' :: rest)

/-- What stands between the text of an item and the bracket that closes the array. -/
inductive Trailing (R : α → List Char → Prop) : List α → List Char → Prop
  | blank {after : List Char} : IsBlank after → Trailing R [] after
  | items {as : List α} {after text : List Char} :
      IsBlank after → Separated R as text → Trailing R as (after ++ ',' :: text)

/-- What stands around an item of an array, given the items before it and behind it. -/
inductive AroundItem (R : α → List Char → Prop) (as bs : List α) : List Char → List Char → Prop
  | mk {left right : List Char} :
      Leading R as left → Trailing R bs right → AroundItem R as bs ('[' :: left) (right ++ [']'])

/-- The tag of a group. -/
inductive Group : String → (List Expression → Expression) → Prop
  | and : Group "and" .and
  | or : Group "or" .or

/-- `Around e path before after`: in a text that writes `e`, what stands before and after the part
at the position. -/
inductive Around : Expression → List Nat → List Char → List Char → Prop
  | whole {e : Expression} : Around e [] [] []
  | not {e : Expression} {path : List Nat} {before after left right : List Char} :
      AroundBody "not" left right → Around e path before after →
      Around (.not e) (0 :: path) (left ++ before) (after ++ right)
  | group {tag : String} {group : List Expression → Expression} {e : Expression}
      {es es' : List Expression} {path : List Nat}
      {before after left right left' right' : List Char} :
      Group tag group → AroundBody tag left right → AroundItem Written es es' left' right' →
      Around e path before after →
      Around (group (es ++ e :: es')) (es.length :: path)
        (left ++ left' ++ before) (after ++ right' ++ right)

/-! ## Taking a text apart -/

theorem tagged_iff {tag : String} {body text : List Char} :
    Tagged tag body text ↔
      ∃ left right, AroundBody tag left right ∧ text = left ++ body ++ right := by
  constructor
  · rintro ⟨hbefore, ⟨hkey, hgap, hspace⟩, hafter⟩
    exact ⟨_, _, .mk hbefore hkey hgap hspace hafter, by simp⟩
  · rintro ⟨_, _, ⟨hbefore, hkey, hgap, hspace, hafter⟩, rfl⟩
    simpa using Tagged.mk hbefore (.mk hkey hgap hspace) hafter

theorem separated_append_cons_iff {R : α → List Char → Prop} {as bs : List α} {a : α}
    {text : List Char} :
    Separated R (as ++ a :: bs) text ↔
      ∃ left item right, Leading R as left ∧ R a item ∧ Trailing R bs right ∧
        text = left ++ item ++ right := by
  constructor
  · intro h
    induction as generalizing text with
    | nil =>
      cases h with
      | last hbefore ha hafter => exact ⟨_, _, _, .blank hbefore, ha, .blank hafter, rfl⟩
      | more hbefore ha hafter hrest =>
        exact ⟨_, _, _, .blank hbefore, ha, .items hafter hrest, by simp⟩
    | cons b as ih =>
      generalize hlist : b :: as ++ a :: bs = list at h
      cases h with
      | last => simp at hlist
      | more hbefore hb hafter hrest =>
        obtain ⟨rfl, rfl⟩ := List.cons.inj hlist
        obtain ⟨left, item, right, hleft, ha, hright, rfl⟩ := ih hrest
        exact ⟨_, item, right, .item hbefore hb hafter hleft, ha, hright, by simp⟩
  · rintro ⟨left, item, right, hleft, ha, hright, rfl⟩
    induction hleft with
    | blank hbefore =>
      cases hright with
      | blank hafter => exact .last hbefore ha hafter
      | items hafter h => simpa using Separated.more hbefore ha hafter h
    | item hbefore hb hafter _ ih => simpa using Separated.more hbefore hb hafter ih

theorem listed_append_cons_iff {R : α → List Char → Prop} {as bs : List α} {a : α}
    {text : List Char} :
    Listed R (as ++ a :: bs) text ↔
      ∃ left item right, AroundItem R as bs left right ∧ R a item ∧
        text = left ++ item ++ right := by
  constructor
  · intro h
    generalize hlist : as ++ a :: bs = list at h
    cases h with
    | empty => simp at hlist
    | items h =>
      subst hlist
      obtain ⟨left, item, right, hleft, ha, hright, rfl⟩ := separated_append_cons_iff.1 h
      exact ⟨_, item, _, .mk hleft hright, ha, by simp⟩
  · rintro ⟨_, item, _, ⟨hleft, hright⟩, ha, rfl⟩
    simpa using Listed.items (separated_append_cons_iff.2 ⟨_, item, _, hleft, ha, hright, rfl⟩)

theorem exists_append_cons_of_getElem? {es : List Expression} {i : Nat} {e : Expression}
    (h : es[i]? = some e) : ∃ before after, es = before ++ e :: after ∧ before.length = i := by
  obtain ⟨hi, rfl⟩ := List.getElem?_eq_some_iff.1 h
  refine ⟨es.take i, es.drop (i + 1), ?_, by rw [List.length_take]; omega⟩
  rw [List.getElem_cons_drop, List.take_append_drop]

theorem written_not_iff {e : Expression} {text : List Char} :
    Written (.not e) text ↔
      ∃ left body right, AroundBody "not" left right ∧ Written e body ∧
        text = left ++ body ++ right := by
  constructor
  · rintro (_ | _ | ⟨hbody, h⟩)
    obtain ⟨left, right, haround, rfl⟩ := tagged_iff.1 h
    exact ⟨left, _, right, haround, hbody, rfl⟩
  · rintro ⟨left, body, right, haround, hbody, rfl⟩
    exact .not hbody (tagged_iff.2 ⟨left, right, haround, rfl⟩)

section Group

variable {tag : String} {group : List Expression → Expression}

theorem Group.part? (h : Group tag group) (es : List Expression) (i : Nat) (path : List Nat) :
    (group es).part? (i :: path) = (es[i]?).bind (Expression.part? · path) := by
  cases h with
  | and => rw [Expression.part?]
  | or => rw [Expression.part?]

theorem Group.written_iff (h : Group tag group) {es : List Expression} {text : List Char} :
    Written (group es) text ↔ ∃ body, Listed Written es body ∧ Tagged tag body text := by
  cases h with
  | and =>
    constructor
    · rintro (⟨hbody, h⟩)
      exact ⟨_, hbody, h⟩
    · rintro ⟨body, hbody, h⟩
      exact .and hbody h
  | or =>
    constructor
    · rintro (_ | ⟨hbody, h⟩)
      exact ⟨_, hbody, h⟩
    · rintro ⟨body, hbody, h⟩
      exact .or hbody h

theorem Group.written_append_cons_iff (h : Group tag group) {es es' : List Expression}
    {e : Expression} {text : List Char} :
    Written (group (es ++ e :: es')) text ↔
      ∃ left right left' item right', AroundBody tag left right ∧
        AroundItem Written es es' left' right' ∧ Written e item ∧
        text = left ++ (left' ++ item ++ right') ++ right := by
  rw [h.written_iff]
  constructor
  · rintro ⟨body, hbody, htagged⟩
    obtain ⟨left', item, right', hitem, he, rfl⟩ := listed_append_cons_iff.1 hbody
    obtain ⟨left, right, hleft, rfl⟩ := tagged_iff.1 htagged
    exact ⟨left, right, left', item, right', hleft, hitem, he, rfl⟩
  · rintro ⟨left, right, left', item, right', hleft, hitem, he, rfl⟩
    exact ⟨_, listed_append_cons_iff.2 ⟨left', item, right', hitem, he, rfl⟩,
      tagged_iff.2 ⟨left, right, hleft, rfl⟩⟩

/-- What stands around a part of an item stands around it in the group, with what stands around the
item. -/
theorem Group.exists_around (h : Group tag group) {es : List Expression} {i : Nat}
    {path : List Nat} {e' : Expression} {text : List Char}
    (hpath : (es[i]?).bind (Expression.part? · path) = some e') (htext : Written (group es) text)
    (ih : ∀ {e : Expression} {text : List Char}, e.part? path = some e' → Written e text →
      ∃ before part after, Around e path before after ∧ Written e' part ∧
        text = before ++ part ++ after) :
    ∃ before part after, Around (group es) (i :: path) before after ∧ Written e' part ∧
      text = before ++ part ++ after := by
  obtain ⟨e, hitem, hpart⟩ := Option.bind_eq_some_iff.1 hpath
  obtain ⟨es, es', rfl, rfl⟩ := exists_append_cons_of_getElem? hitem
  obtain ⟨left, right, left', item, right', hleft, hitem, he, rfl⟩ :=
    h.written_append_cons_iff.1 htext
  obtain ⟨before, part, after, haround, hwritten, rfl⟩ := ih hpart he
  exact ⟨_, part, _, .group h hleft hitem haround, hwritten, by simp⟩

end Group

/-- **A text writes an expression exactly when it writes a part of it, with what stands around this
part before and after.** -/
theorem written_iff_around {e e' : Expression} {path : List Nat} (hpath : e.part? path = some e')
    {text : List Char} :
    Written e text ↔ ∃ before part after, Around e path before after ∧ Written e' part ∧
      text = before ++ part ++ after := by
  constructor
  · intro h
    induction path generalizing e text with
    | nil =>
      obtain rfl := Option.some.inj (part?.eq_1 e ▸ hpath)
      exact ⟨[], text, [], .whole, h, by simp⟩
    | cons i path ih =>
      cases e with
      | and es => exact Group.and.exists_around (Group.and.part? es i path ▸ hpath) h fun h => ih h
      | or es => exact Group.or.exists_around (Group.or.part? es i path ▸ hpath) h fun h => ih h
      | not e =>
        cases i with
        | succ i => cases hpath
        | zero =>
          obtain ⟨left, body, right, hleft, hbody, rfl⟩ := written_not_iff.1 h
          obtain ⟨before, part, after, haround, hpart, rfl⟩ := ih hpath hbody
          exact ⟨_, part, _, .not hleft haround, hpart, by simp⟩
      | equals field value => simp [part?] at hpath
      | contains field value => simp [part?] at hpath
  · rintro ⟨before, part, after, haround, hpart, rfl⟩
    induction haround with
    | whole =>
      obtain rfl := Option.some.inj (part?.eq_1 _ ▸ hpath)
      simpa using hpart
    | not hleft _ ih =>
      exact written_not_iff.2 ⟨_, _, _, hleft, ih hpath, by simp⟩
    | @group tag group e es es' path _ _ _ _ _ _ hgroup hleft hitem _ ih =>
      rw [hgroup.part?, List.getElem?_append_right (Nat.le_refl _), Nat.sub_self,
        List.getElem?_cons_zero, Option.bind_some] at hpath
      exact hgroup.written_append_cons_iff.2 ⟨_, _, _, _, _, hleft, hitem, ih hpath, by simp⟩

/-! ## Trees that stand for no expression -/

/-- The keys that an expression can stand under. -/
def tags : List String :=
  ["and", "or", "not", "equals", "contains"]

/-- An object that is no expression: it has no member, several, or one under a key that no
expression stands under. -/
inductive Foreign : Node → Prop
  | empty : Foreign (.object [])
  | several {members : List (List Char × Node)} : 2 ≤ members.length → Foreign (.object members)
  | unknown {key : List Char} {n : Node} :
      (∀ tag ∈ tags, decode key ≠ some tag.toList) → Foreign (.object [(key, n)])

/-- The tree stands for no expression. -/
def Unspelled (n : Node) : Prop :=
  ∀ e, ¬Spelled e n

/-- An expression stands under one of the known keys. -/
theorem Spelled.exists_tag {e : Expression} {n : Node} (h : Spelled e n) :
    ∃ key body, n = .object [(key, body)] ∧ ∃ tag ∈ tags, decode key = some tag.toList := by
  cases h with
  | and hkey => exact ⟨_, _, rfl, "and", by decide, hkey⟩
  | or hkey => exact ⟨_, _, rfl, "or", by decide, hkey⟩
  | not hkey => exact ⟨_, _, rfl, "not", by decide, hkey⟩
  | equals hkey => exact ⟨_, _, rfl, "equals", by decide, hkey⟩
  | contains hkey => exact ⟨_, _, rfl, "contains", by decide, hkey⟩

theorem Foreign.unspelled {n : Node} (h : Foreign n) : Unspelled n := by
  intro e hspelled
  obtain ⟨key, body, rfl, tag, htag, hkey⟩ := hspelled.exists_tag
  cases h with
  | several h => simp at h
  | unknown h => exact h tag htag hkey

theorem eq_of_decode {key : List Char} {tag tag' : String} (h : decode key = some tag.toList)
    (h' : decode key = some tag'.toList) : tag = tag' :=
  String.toList_inj.1 (Option.some.inj (h.symm.trans h'))

theorem Unspelled.not {key : List Char} {n : Node} (hkey : decode key = some "not".toList)
    (h : Unspelled n) : Unspelled (.object [(key, n)]) := by
  intro e hspelled
  cases hspelled with
  | not _ hn => exact h _ hn
  | and hkey' => exact absurd (eq_of_decode hkey hkey') (by decide)
  | or hkey' => exact absurd (eq_of_decode hkey hkey') (by decide)
  | equals hkey' => exact absurd (eq_of_decode hkey hkey') (by decide)
  | contains hkey' => exact absurd (eq_of_decode hkey hkey') (by decide)

/-- No expressions stand in a list with something else among them. -/
theorem not_forall₂_spelled {items items' : List Node} {n : Node} (h : Unspelled n)
    (es : List Expression) : ¬List.Forall₂ Spelled es (items ++ n :: items') := by
  induction items generalizing es with
  | nil =>
    rintro (_ | ⟨hn, _⟩)
    exact h _ hn
  | cons m items ih =>
    rintro (_ | ⟨_, hrest⟩)
    exact ih _ hrest

theorem Unspelled.group {tag : String} {group : List Expression → Expression} {key : List Char}
    {items items' : List Node} {n : Node} (hgroup : Group tag group)
    (hkey : decode key = some tag.toList) (h : Unspelled n) :
    Unspelled (.object [(key, .array (items ++ n :: items'))]) := by
  have hne : tag ≠ "not" ∧ tag ≠ "equals" ∧ tag ≠ "contains" := by
    cases hgroup <;> decide
  intro e hspelled
  cases hspelled with
  | and _ hitems => exact not_forall₂_spelled h _ hitems
  | or _ hitems => exact not_forall₂_spelled h _ hitems
  | not hkey' => exact hne.1 (eq_of_decode hkey hkey')
  | equals hkey' => exact hne.2.1 (eq_of_decode hkey hkey')
  | contains hkey' => exact hne.2.2 (eq_of_decode hkey hkey')

/-! ## The tree of the whole text -/

theorem Leading.exists_nodes {es : List Expression} {text : List Char}
    (h : Leading Written es text) : ∃ items, Leading Writes items text := by
  induction h with
  | blank hbefore => exact ⟨[], .blank hbefore⟩
  | item hbefore he hafter _ ih =>
    obtain ⟨n, hn, -⟩ := he.exists_spelled
    obtain ⟨items, hitems⟩ := ih
    exact ⟨n :: items, .item hbefore hn hafter hitems⟩

theorem Trailing.exists_nodes {es : List Expression} {text : List Char}
    (h : Trailing Written es text) : ∃ items, Trailing Writes items text := by
  cases h with
  | blank hafter => exact ⟨[], .blank hafter⟩
  | items hafter h =>
    obtain ⟨items, hitems, -⟩ := exists_separated h fun _ _ _ => Written.exists_spelled
    exact ⟨items, .items hafter hitems⟩

/-- Between other items an item is one of the array. -/
theorem AroundItem.exists_array {es es' : List Expression} {left right text : List Char} {n : Node}
    (h : AroundItem Written es es' left right) (hn : Writes n text) :
    ∃ items items', Writes (.array (items ++ n :: items')) (left ++ text ++ right) := by
  obtain ⟨hleft, hright⟩ := h
  obtain ⟨items, hitems⟩ := hleft.exists_nodes
  obtain ⟨items', hitems'⟩ := hright.exists_nodes
  refine ⟨items, items', ?_⟩
  simpa using Writes.array (separated_append_cons_iff.2 ⟨_, _, _, hitems, hn, hitems', rfl⟩)

theorem AroundBody.exists_object {tag : String} {left right text : List Char} {n : Node}
    (h : AroundBody tag left right) (hn : Writes n text) :
    ∃ key, Writes (.object [(key, n)]) (left ++ text ++ right) ∧ decode key = some tag.toList :=
  (tagged_iff.2 ⟨left, right, h, rfl⟩).exists_object hn

/-- **With something else in the place of a part, the text as a whole writes something else.** -/
theorem Around.exists_unspelled {e : Expression} {path : List Nat} {before after : List Char}
    (h : Around e path before after) {n : Node} {text : List Char} (hn : Writes n text)
    (hunspelled : Unspelled n) :
    ∃ n', Writes n' (before ++ text ++ after) ∧ Unspelled n' := by
  induction h with
  | whole => exact ⟨n, by simpa using hn, hunspelled⟩
  | not hleft _ ih =>
    obtain ⟨n', hn', hunspelled'⟩ := ih
    obtain ⟨key, hobject, hkey⟩ := hleft.exists_object hn'
    exact ⟨_, by simpa using hobject, hunspelled'.not hkey⟩
  | group hgroup hleft hitem _ ih =>
    obtain ⟨n', hn', hunspelled'⟩ := ih
    obtain ⟨items, items', harray⟩ := hitem.exists_array hn'
    obtain ⟨key, hobject, hkey⟩ := hleft.exists_object harray
    exact ⟨_, by simpa using hobject, hunspelled'.group hgroup hkey⟩

/-- A text that writes a tree of no expression is refused, with any blanks around it. -/
theorem ofJson_of_unspelled {n : Node} {before text after : List Char} (hbefore : IsBlank before)
    (hn : Writes n text) (hafter : IsBlank after) (h : Unspelled n) :
    ofJson (String.ofList (before ++ text ++ after)) = .error .unsupportedFilter := by
  have hread : ofNode? nestingLimit n = none := by
    cases hread : ofNode? nestingLimit n with
    | none => rfl
    | some e => exact absurd (ofNode?_eq_some_iff.1 hread).1 (h e)
  rw [ofJson, String.toList_ofList, read?_of_writes hbefore hn hafter, Option.bind_some, hread]

/-- **No unknown part of an expression is passed over.** A text writes an expression exactly when it
writes the part at a position, with what stands around it; and with an object that is no expression
in the place of this part it is refused. -/
theorem ofJson_around {e e' : Expression} {path : List Nat} (hpath : e.part? path = some e') :
    (∀ text, Written e text ↔ ∃ before part after, Around e path before after ∧ Written e' part ∧
      text = before ++ part ++ after) ∧
    ∀ before after, Around e path before after → ∀ n text, Foreign n → Writes n text →
      ∀ blank blank', IsBlank blank → IsBlank blank' →
        ofJson (String.ofList (blank ++ (before ++ text ++ after) ++ blank')) =
          .error .unsupportedFilter := by
  refine ⟨fun text => written_iff_around hpath, ?_⟩
  intro before after haround n text hforeign hn blank blank' hblank hblank'
  obtain ⟨n', hn', hunspelled⟩ := haround.exists_unspelled hn hforeign.unspelled
  exact ofJson_of_unspelled hblank hn' hblank' hunspelled

/-- A key with a capital is not known, below a negation in a group no more than elsewhere. -/
theorem ofJson_around_capital :
    let e := Expression.and [.or [], .not (.equals "sn" "x")]
    e.part? [1, 0] = some (.equals "sn" "x") ∧
      ofJson (" \x7b\"and\":[\x7b\"or\":[]\x7d,\x7b\"not\":" ++
        "\x7b\"Equals\":[\"sn\",\"x\"]\x7d\x7d]\x7d\n") = .error .unsupportedFilter := by
  intro e
  have hpath : e.part? [1, 0] = some (.equals "sn" "x") := by
    simp [e, part?]
  have body (tag : String) :
      AroundBody tag ('{' :: (Node.quoted (encode tag.toList) ++ [':'])) ['}'] := by
    have hkey := writesText_encode tag
    simpa using AroundBody.mk isBlank_nil hkey isBlank_nil isBlank_nil isBlank_nil
  have hor : Written (.or []) "\x7b\"or\":[]\x7d".toList := by
    refine (congrArg (Written (.or [])) ?_).mp (written_compact (.or []))
    decide +kernel
  have hitem : AroundItem Written [.or []] [] ('[' :: "\x7b\"or\":[]\x7d,".toList) [']'] :=
    .mk (.item isBlank_nil hor isBlank_nil (.blank isBlank_nil)) (.blank isBlank_nil)
  have haround : Around e [1, 0] _ _ := .group .and (body "and") hitem (.not (body "not") .whole)
  have hitems : ∀ n ∈ [Node.ofText "sn", Node.ofText "x"], n.Writable := by
    simp [Json.writable_ofText]
  have htag : Json.encode "Equals".toList = "Equals".toList := by decide
  have hn := Json.writes_compact (writable_tagged htag (.array hitems))
  have hspace : IsBlank " ".toList := isBlank_cons rfl isBlank_nil
  have hend : IsBlank "\n".toList := isBlank_cons rfl isBlank_nil
  have h := (ofJson_around hpath).2 _ _ haround _ _ (.unknown (by decide +kernel)) hn _ _
    hspace hend
  refine ⟨hpath, (congrArg (ofJson · = .error .unsupportedFilter) ?_).mp h⟩
  decide +kernel

end DirectoryLookup.Expression
