import DirectoryLookup.Proofs.Expression.RoundTrip
import DirectoryLookup.Proofs.Json.Escapes

/-!
# Every way to write an expression

The texts that write an expression, stated without the reader (`Written`).

- Blanks may stand before, between and after tokens.
- Keys, fields and values may be written with any escapes.
- A condition is an array of its field and its value, or an object that holds `field` and `value`
  once each. Any members may stand beside these two, before, between or after them, and hold any
  JSON.

**Theorem (`ofJson_of_written`).** A text that writes an expression within the limit of nesting is
read as that expression.

A text that writes an expression writes a tree that stands for the expression
(`Written.exists_spelled`): the grammar of expressions is followed down to the grammar of JSON, and
the tree is put together on the way back. What is left is that the reader finds the tree and takes
it for the expression, which is known of every tree. Nothing is missing from the grammar: it has
each text of each tree that stands for an expression (`written_iff`).
-/

namespace DirectoryLookup.Expression

open Json (Node IsBlank Numeral Separated Stands Writes decode decode_encode encode isBlank_cons
  isBlank_nil raw_encode read?_of_writes stands_iff writes_compact)

variable {α β : Type}

/-! ## Texts -/

/-- A text between quotes, each of its characters as it is or as an escape. -/
inductive WritesText (content : String) : List Char → Prop
  | mk {raw : List Char} : Stands content.toList raw → WritesText content (Node.quoted raw)

/-- A key, a colon and what stands under the key. -/
inductive Under (key : String) (body : List Char) : List Char → Prop
  | mk {keyText before after : List Char} :
      WritesText key keyText → IsBlank before → IsBlank after →
      Under key body (keyText ++ before ++ ':' :: (after ++ body))

/-- An object with one member. -/
inductive Tagged (tag : String) (body : List Char) : List Char → Prop
  | mk {before member after : List Char} :
      IsBlank before → Under tag body member → IsBlank after →
      Tagged tag body ('{' :: (before ++ member ++ after) ++ ['}'])

/-- An array, given the texts of its items. -/
inductive Listed (R : α → List Char → Prop) : List α → List Char → Prop
  | empty {blank : List Char} : IsBlank blank → Listed R [] ('[' :: blank ++ [']'])
  | items {as : List α} {text : List Char} :
      Separated R as text → Listed R as ('[' :: text ++ [']'])

/-- A member of a condition, under its key. -/
inductive ConditionMember (field value : String) : String → List Char → Prop
  | field {body text : List Char} :
      WritesText field body → Under "field" body text → ConditionMember field value "field" text
  | value {body text : List Char} :
      WritesText value body → Under "value" body text → ConditionMember field value "value" text
  | other {key : String} {n : Node} {body text : List Char} :
      key ≠ "field" → key ≠ "value" → Writes n body → Under key body text →
      ConditionMember field value key text

/-- The texts of a condition. Among the keys of an object, the field and the value each occur
once. -/
inductive WritesCondition (field value : String) : List Char → Prop
  | pair {text : List Char} :
      Listed WritesText [field, value] text → WritesCondition field value text
  | members {keys : List String} {text : List Char} :
      keys.count "field" = 1 → keys.count "value" = 1 →
      Separated (ConditionMember field value) keys text →
      WritesCondition field value ('{' :: text ++ ['}'])

/-- `Written e text`: the text writes the expression, and starts and ends with a token. -/
inductive Written : Expression → List Char → Prop
  | and {es : List Expression} {body text : List Char} :
      Listed Written es body → Tagged "and" body text → Written (.and es) text
  | or {es : List Expression} {body text : List Char} :
      Listed Written es body → Tagged "or" body text → Written (.or es) text
  | not {e : Expression} {body text : List Char} :
      Written e body → Tagged "not" body text → Written (.not e) text
  | equals {field value : String} {body text : List Char} :
      WritesCondition field value body → Tagged "equals" body text →
      Written (.equals field value) text
  | contains {field value : String} {body text : List Char} :
      WritesCondition field value body → Tagged "contains" body text →
      Written (.contains field value) text

/-- What is written between quotes stands for the text. -/
theorem stands_encode (text : List Char) : Stands text (encode text) :=
  stands_iff.2 ⟨raw_encode text, decode_encode text⟩

theorem writesText_encode (content : String) :
    WritesText content (Node.quoted (encode content.toList)) :=
  .mk (stands_encode content.toList)

/-! ## The trees they write -/

variable {text body : List Char} {n : Node} {key content : String}

/-- If each text of a part writes something that stands for the part, then the text of several parts
writes as many things, each of which stands for its part. -/
theorem exists_separated {R : α → List Char → Prop} {S : β → List Char → Prop} {Q : α → β → Prop}
    {as : List α} (h : Separated R as text)
    (hR : ∀ a ∈ as, ∀ text, R a text → ∃ b, S b text ∧ Q a b) :
    ∃ bs, Separated S bs text ∧ List.Forall₂ Q as bs := by
  induction h with
  | @last a before text after hbefore ha hafter =>
    obtain ⟨b, hb, hab⟩ := hR a List.mem_cons_self text ha
    exact ⟨[b], .last hbefore hb hafter, .cons hab .nil⟩
  | @more a as before text after rest hbefore ha hafter _ ih =>
    obtain ⟨b, hb, hab⟩ := hR a List.mem_cons_self text ha
    obtain ⟨bs, hbs, hall⟩ := ih fun a ha => hR a (List.mem_cons_of_mem _ ha)
    exact ⟨b :: bs, .more hbefore hb hafter hbs, .cons hab hall⟩

theorem Listed.exists_array {R : α → List Char → Prop} {Q : α → Node → Prop} {as : List α}
    (h : Listed R as text)
    (hR : ∀ a ∈ as, ∀ text, R a text → ∃ n, Writes n text ∧ Q a n) :
    ∃ items, Writes (.array items) text ∧ List.Forall₂ Q as items := by
  cases h with
  | empty hblank => exact ⟨[], .emptyArray hblank, .nil⟩
  | items h =>
    obtain ⟨items, hitems, hall⟩ := exists_separated h hR
    exact ⟨items, .array hitems, hall⟩

theorem WritesText.exists_string (h : WritesText content text) :
    ∃ n, Writes n text ∧ n.text? = some content := by
  obtain ⟨h⟩ := h
  refine ⟨_, .string h.raw, ?_⟩
  rw [Node.text?, h.decode_eq, Option.map_some, String.ofList_toList]

theorem Under.exists_member (h : Under key body text) (hn : Writes n body) :
    ∃ k, Json.Member Writes (k, n) text ∧ decode k = some key.toList := by
  obtain ⟨⟨hkey⟩, hbefore, hafter⟩ := h
  exact ⟨_, .mk hkey.raw hbefore hafter hn, hkey.decode_eq⟩

theorem Tagged.exists_object {tag : String} (h : Tagged tag body text) (hn : Writes n body) :
    ∃ key, Writes (.object [(key, n)]) text ∧ decode key = some tag.toList := by
  obtain ⟨hbefore, hmember, hafter⟩ := h
  obtain ⟨key, hmember, hkey⟩ := hmember.exists_member hn
  exact ⟨key, .object (.last hbefore hmember hafter), hkey⟩

/-! ## Conditions -/

/-- The member stands under `k`, and holds the content if this is the key of the content. -/
def Holds (key content k : String) (m : List Char × Node) : Prop :=
  decode m.1 = some k.toList ∧ (k = key → m.2.text? = some content)

/-- The member stands under `k`, with what the condition asks of a member under this key. -/
def Fits (field value k : String) (m : List Char × Node) : Prop :=
  Holds "field" field k m ∧ Holds "value" value k m

variable {field value : String} {keys : List String} {members : List (List Char × Node)}

theorem ConditionMember.exists_fits (h : ConditionMember field value key text) :
    ∃ m, Json.Member Writes m text ∧ Fits field value key m := by
  cases h with
  | field hbody h =>
    obtain ⟨n, hn, htext⟩ := hbody.exists_string
    obtain ⟨k, hmember, hk⟩ := h.exists_member hn
    exact ⟨_, hmember, ⟨hk, fun _ => htext⟩, hk, fun heq => absurd heq (by decide)⟩
  | value hbody h =>
    obtain ⟨n, hn, htext⟩ := hbody.exists_string
    obtain ⟨k, hmember, hk⟩ := h.exists_member hn
    exact ⟨_, hmember, ⟨hk, fun heq => absurd heq (by decide)⟩, hk, fun _ => htext⟩
  | other hfield hvalue hn h =>
    obtain ⟨k, hmember, hk⟩ := h.exists_member hn
    exact ⟨_, hmember, ⟨hk, fun heq => absurd heq hfield⟩, hk, fun heq => absurd heq hvalue⟩

/-- What stands under a key is found once for each time the key occurs. -/
theorem map_text?_nodesUnder (h : List.Forall₂ (Holds key content) keys members) :
    (nodesUnder key members).map Node.text? = List.replicate (keys.count key) (some content) := by
  induction h with
  | nil => rfl
  | @cons k m keys members hm _ ih =>
    rw [nodesUnder_cons, hm.1]
    by_cases hk : k = key
    · subst hk
      rw [if_pos rfl, List.map_cons, ih, hm.2 rfl, List.count_cons_self, List.replicate_succ]
    · have hne : some k.toList ≠ some key.toList := fun h =>
        hk (String.toList_inj.1 (Option.some.inj h))
      rw [if_neg hne, ih, List.count_cons_of_ne hk]

/-- Under a key that occurs once stands one text. -/
theorem nodesUnder_of_count (hcount : keys.count key = 1)
    (h : List.Forall₂ (Holds key content) keys members) :
    ∃ n, nodesUnder key members = [n] ∧ n.text? = some content := by
  have hmap := map_text?_nodesUnder h
  rw [hcount, List.replicate_one, List.map_eq_singleton_iff] at hmap
  exact hmap

theorem isSome_decode_of_fits (h : List.Forall₂ (Fits field value) keys members) :
    ∀ m ∈ members, (decode m.1).isSome := by
  induction h with
  | nil => exact fun m hm => absurd hm List.not_mem_nil
  | cons hm _ ih =>
    refine List.forall_mem_cons.2 ⟨?_, ih⟩
    rw [hm.1.1]
    rfl

theorem WritesCondition.exists_condition (h : WritesCondition field value text) :
    ∃ n, Writes n text ∧ Condition field value n := by
  cases h with
  | pair h =>
    obtain ⟨items, hitems, hall⟩ := h.exists_array fun _ _ _ => WritesText.exists_string
    obtain _ | ⟨hf, _ | ⟨hv, ⟨⟩⟩⟩ := hall
    exact ⟨_, hitems, .pair hf hv⟩
  | members hfield hvalue h =>
    obtain ⟨members, hmembers, hall⟩ := exists_separated h fun _ _ _ => ConditionMember.exists_fits
    obtain ⟨f, hf, hft⟩ := nodesUnder_of_count hfield (hall.imp fun _ _ h => h.1)
    obtain ⟨v, hv, hvt⟩ := nodesUnder_of_count hvalue (hall.imp fun _ _ h => h.2)
    exact ⟨_, .object hmembers, .members (isSome_decode_of_fits hall) hf hft hv hvt⟩

/-! ## Expressions -/

/-- **A text that writes an expression writes a tree that stands for it.** -/
theorem Written.exists_spelled {e : Expression} {text : List Char} (h : Written e text) :
    ∃ n, Writes n text ∧ Spelled e n := by
  cases h with
  | and hbody h =>
    obtain ⟨items, hitems, hall⟩ := hbody.exists_array fun e _ text h => h.exists_spelled
    obtain ⟨key, hobject, hkey⟩ := h.exists_object hitems
    exact ⟨_, hobject, .and hkey hall⟩
  | or hbody h =>
    obtain ⟨items, hitems, hall⟩ := hbody.exists_array fun e _ text h => h.exists_spelled
    obtain ⟨key, hobject, hkey⟩ := h.exists_object hitems
    exact ⟨_, hobject, .or hkey hall⟩
  | not hbody h =>
    obtain ⟨n, hn, hspelled⟩ := hbody.exists_spelled
    obtain ⟨key, hobject, hkey⟩ := h.exists_object hn
    exact ⟨_, hobject, .not hkey hspelled⟩
  | equals hbody h =>
    obtain ⟨n, hn, hcondition⟩ := hbody.exists_condition
    obtain ⟨key, hobject, hkey⟩ := h.exists_object hn
    exact ⟨_, hobject, .equals hkey hcondition⟩
  | contains hbody h =>
    obtain ⟨n, hn, hcondition⟩ := hbody.exists_condition
    obtain ⟨key, hobject, hkey⟩ := h.exists_object hn
    exact ⟨_, hobject, .contains hkey hcondition⟩
termination_by e

/-! ## No other texts write such trees -/

theorem separated_of_forall₂ {R : α → List Char → Prop} {S : β → List Char → Prop}
    {Q : α → β → Prop} {as : List α} {bs : List β} (h : Separated S bs text)
    (hall : List.Forall₂ Q as bs)
    (hR : ∀ a ∈ as, ∀ b text, S b text → Q a b → R a text) : Separated R as text := by
  induction h generalizing as with
  | @last b before text after hbefore hb hafter =>
    obtain _ | ⟨hab, ⟨⟩⟩ := hall
    exact .last hbefore (hR _ List.mem_cons_self b text hb hab) hafter
  | @more b bs before text after rest hbefore hb hafter _ ih =>
    obtain _ | ⟨hab, hall⟩ := hall
    exact .more hbefore (hR _ List.mem_cons_self b text hb hab) hafter
      (ih hall fun a ha => hR a (List.mem_cons_of_mem _ ha))

theorem listed_of_forall₂ {R : α → List Char → Prop} {Q : α → Node → Prop} {as : List α}
    {items : List Node} (h : Writes (.array items) text)
    (hall : List.Forall₂ Q as items)
    (hR : ∀ a ∈ as, ∀ n text, Writes n text → Q a n → R a text) : Listed R as text := by
  cases h with
  | emptyArray hblank =>
    obtain ⟨⟩ := hall
    exact .empty hblank
  | array h => exact .items (separated_of_forall₂ h hall hR)

theorem writesText_of_text? (h : Writes n text) (htext : n.text? = some content) :
    WritesText content text := by
  cases h with
  | @string raw hraw =>
    obtain ⟨content, hdecode, rfl⟩ := Option.map_eq_some_iff.1 htext
    refine .mk (stands_iff.2 ⟨hraw, ?_⟩)
    rw [hdecode, String.toList_ofList]
  | _ => cases htext

theorem exists_under {k : List Char} (h : Json.Member Writes (k, n) text)
    (hk : decode k = some key.toList) :
    ∃ body, Writes n body ∧ Under key body text := by
  obtain ⟨hraw, hbefore, hafter, hn⟩ := h
  exact ⟨_, hn, .mk (.mk (stands_iff.2 ⟨hraw, hk⟩)) hbefore hafter⟩

theorem exists_tagged {tag : String} {k : List Char} (h : Writes (.object [(k, n)]) text)
    (hk : decode k = some tag.toList) :
    ∃ body, Writes n body ∧ Tagged tag body text := by
  cases h with
  | object h =>
    cases h with
    | last hbefore hmember hafter =>
      obtain ⟨body, hn, hunder⟩ := exists_under hmember hk
      exact ⟨body, hn, .mk hbefore hunder hafter⟩
    | more _ _ _ h => cases h

theorem Fits.conditionMember {m : List Char × Node} (hfits : Fits field value key m)
    (h : Json.Member Writes m text) :
    ConditionMember field value key text := by
  obtain ⟨⟨hk, hfield⟩, -, hvalue⟩ := hfits
  obtain ⟨body, hn, hunder⟩ := exists_under h hk
  by_cases hf : key = "field"
  · subst hf
    exact .field (writesText_of_text? hn (hfield rfl)) hunder
  · by_cases hv : key = "value"
    · subst hv
      exact .value (writesText_of_text? hn (hvalue rfl)) hunder
    · exact .other hf hv hn hunder

theorem exists_fits_of_isSome {f v : Node} (hall : ∀ m ∈ members, (decode m.1).isSome)
    (hf : nodesUnder "field" members = [f]) (hft : f.text? = some field)
    (hv : nodesUnder "value" members = [v]) (hvt : v.text? = some value) :
    ∃ keys, List.Forall₂ (Fits field value) keys members := by
  have only {key : String} {n : Node} (hn : nodesUnder key members = [n]) {m : List Char × Node}
      (hm : m ∈ members) (hkey : decode m.1 = some key.toList) : m.2 = n := by
    have hmem : m.2 ∈ nodesUnder key members :=
      List.mem_map_of_mem (List.mem_filter.2 ⟨hm, decide_eq_true hkey⟩)
    rw [hn] at hmem
    exact List.mem_singleton.1 hmem
  refine ⟨members.map fun m => String.ofList ((decode m.1).getD []), ?_⟩
  rw [List.forall₂_map_left_iff, List.forall₂_same]
  intro m hm
  obtain ⟨key, hkey⟩ := Option.isSome_iff_exists.1 (hall m hm)
  have hk : decode m.1 = some (String.ofList ((decode m.1).getD [])).toList := by
    rw [hkey, Option.getD_some, String.toList_ofList]
  refine ⟨⟨hk, fun h => ?_⟩, hk, fun h => ?_⟩
  · rw [only hf hm (h ▸ hk), hft]
  · rw [only hv hm (h ▸ hk), hvt]

theorem count_of_nodesUnder (hn : nodesUnder key members = [n])
    (h : List.Forall₂ (Holds key content) keys members) : keys.count key = 1 := by
  have hmap := congrArg List.length (map_text?_nodesUnder h)
  rw [hn, List.length_map, List.length_replicate] at hmap
  exact hmap.symm

theorem Condition.writesCondition (hcondition : Condition field value n) (h : Writes n text) :
    WritesCondition field value text := by
  cases hcondition with
  | pair hf hv =>
    exact .pair (listed_of_forall₂ h (.cons hf (.cons hv .nil)) fun _ _ _ _ =>
      writesText_of_text?)
  | members hall hf hft hv hvt =>
    obtain ⟨keys, hfits⟩ := exists_fits_of_isSome hall hf hft hv hvt
    cases h with
    | emptyObject _ => cases hf
    | object h =>
      exact .members (count_of_nodesUnder hf (hfits.imp fun _ _ h => h.1))
        (count_of_nodesUnder hv (hfits.imp fun _ _ h => h.2))
        (separated_of_forall₂ h hfits fun _ _ _ _ hm hfits => hfits.conditionMember hm)

theorem Spelled.written {e : Expression} {n : Node} {text : List Char} (hspelled : Spelled e n)
    (h : Writes n text) : Written e text := by
  cases hspelled with
  | and hkey hall =>
    obtain ⟨body, hbody, htagged⟩ := exists_tagged h hkey
    have hlisted := listed_of_forall₂ hbody hall fun e _ n text h hspelled => hspelled.written h
    exact .and hlisted htagged
  | or hkey hall =>
    obtain ⟨body, hbody, htagged⟩ := exists_tagged h hkey
    have hlisted := listed_of_forall₂ hbody hall fun e _ n text h hspelled => hspelled.written h
    exact .or hlisted htagged
  | not hkey hspelled =>
    obtain ⟨body, hbody, htagged⟩ := exists_tagged h hkey
    exact .not (hspelled.written hbody) htagged
  | equals hkey hcondition =>
    obtain ⟨body, hbody, htagged⟩ := exists_tagged h hkey
    exact .equals (hcondition.writesCondition hbody) htagged
  | contains hkey hcondition =>
    obtain ⟨body, hbody, htagged⟩ := exists_tagged h hkey
    exact .contains (hcondition.writesCondition hbody) htagged
termination_by e

/-- **A text writes an expression exactly when it writes a tree that stands for it.** -/
theorem written_iff {e : Expression} :
    Written e text ↔ ∃ n, Writes n text ∧ Spelled e n :=
  ⟨Written.exists_spelled, fun ⟨_, h, hspelled⟩ => hspelled.written h⟩

/-- The text of an expression is one of those that write it. -/
theorem written_compact (e : Expression) : Written e e.toNode.compact :=
  written_iff.2 ⟨_, writes_compact (writable_toNode e), spelled_toNode e⟩

/-! ## Reading -/

/-- **Every text that writes an expression is read as that expression**, with any blanks around it,
if the nesting of the expression is within the limit. -/
theorem ofJson_of_written {e : Expression} {before text after : List Char} (hle : e.nesting ≤ 127)
    (hbefore : IsBlank before) (h : Written e text) (hafter : IsBlank after) :
    ofJson (String.ofList (before ++ text ++ after)) = .ok e := by
  obtain ⟨n, hn, hspelled⟩ := h.exists_spelled
  refine ofJson_eq_ok_iff.2 ⟨n, ?_, hspelled, hle⟩
  rw [String.toList_ofList]
  exact read?_of_writes hbefore hn hafter

/-- Blanks and escapes throughout, a condition of each form, and among the members of the second one
that is passed over, with a number out of any range and half of a surrogate pair in it. -/
theorem ofJson_of_written_escaped :
    let e := Expression.and [.equals "mail" "😀", .not (.contains "sn" "\n")]
    let first := "[\"mail\",\"\\uD83d\\uDe00\"]".toList
    let second :=
      "\x7b\"x\":[[1E999,\"\\ud800\"]],\"value\":\"\\n\",\"\\u0066ield\":\"sn\"\x7d".toList
    let text := "\x7b\"\\u0061nd\" : [ \x7b\"equals\":".toList ++ first ++
      "\x7d\t, \x7b\"not\":\x7b\"contains\":".toList ++ second ++ "\x7d\x7d ] \x7d".toList
    e.nesting ≤ 127 ∧ Written e text ∧
      ofJson (String.ofList (" ".toList ++ text ++ "\r\n".toList)) = .ok e := by
  intro e first second text
  have hspace : IsBlank " ".toList := isBlank_cons rfl isBlank_nil
  have htab : IsBlank "\t".toList := isBlank_cons rfl isBlank_nil
  have hend : IsBlank "\r\n".toList := isBlank_cons rfl (isBlank_cons rfl isBlank_nil)
  have under (key : String) (body : List Char) :
      Under key body (Node.quoted (encode key.toList) ++ ':' :: body) := by
    have h : Under key body _ := .mk (writesText_encode key) isBlank_nil isBlank_nil
    simpa using h
  have tagged (tag : String) (body : List Char) :
      Tagged tag body ('{' :: (Node.quoted (encode tag.toList) ++ ':' :: body) ++ ['}']) := by
    simpa using Tagged.mk isBlank_nil (under tag body) isBlank_nil
  have hand : Stands "and".toList "\\u0061nd".toList := .hex rfl (stands_encode ['n', 'd'])
  have hface : Stands "😀".toList "\\uD83d\\uDe00".toList := .pair (by decide) rfl rfl .nil
  have hfield : Stands "field".toList "\\u0066ield".toList :=
    .hex rfl (stands_encode ['i', 'e', 'l', 'd'])
  have hdigits : Json.IsDigits "999".toList := ⟨by decide, by simp⟩
  have hnumber : Numeral "1E999".toList :=
    .mk (.inl rfl) (.digits (by decide) rfl fun _ h => absurd h List.not_mem_nil) .none
      (.some (.inr rfl) (.inl rfl) hdigits)
  have hskipped : Writes (.array [.array [.number "1E999".toList, .string "\\ud800".toList]])
      "[[1E999,\"\\ud800\"]]".toList :=
    .array (.last isBlank_nil (.array (.more isBlank_nil (.number hnumber) isBlank_nil
      (.last isBlank_nil (.string (.hex rfl rfl rfl rfl .nil)) isBlank_nil))) isBlank_nil)
  have hfirst : WritesCondition "mail" "😀" first :=
    .pair (.items (.more isBlank_nil (writesText_encode "mail") isBlank_nil
      (.last isBlank_nil (.mk hface) isBlank_nil)))
  have hcount : ["x", "value", "field"].count "field" = 1 := by decide
  have hsecond : WritesCondition "sn" "\n" second :=
    .members hcount (by decide)
      (.more isBlank_nil (.other (by decide) (by decide) hskipped (under "x" _)) isBlank_nil
        (.more isBlank_nil (.value (writesText_encode "\n") (under "value" _)) isBlank_nil
          (.last isBlank_nil (.field (writesText_encode "sn")
            (.mk (.mk hfield) isBlank_nil isBlank_nil)) isBlank_nil)))
  have hequals := Written.equals hfirst (tagged "equals" first)
  have hnot := Written.not (.contains hsecond (tagged "contains" second)) (tagged "not" _)
  have hwritten := Written.and (.items (.more hspace hequals htab (.last hspace hnot hspace)))
    (.mk isBlank_nil (.mk (.mk hand) hspace hspace) hspace)
  have htext : Written e text := by
    refine (congrArg (Written e) ?_).mp hwritten
    decide +kernel
  exact ⟨by decide, htext, ofJson_of_written (by decide) hspace htext hend⟩

end DirectoryLookup.Expression
