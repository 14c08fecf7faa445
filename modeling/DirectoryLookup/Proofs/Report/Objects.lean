import DirectoryLookup.Proofs.Json.Printing
import DirectoryLookup.Report
import Mathlib.Data.List.Forall2
import Mathlib.Data.List.Nodup

/-!
# What the JSON report says

**Objects** (`Describes`). The object of a person says the distinguished name and what is set: each
field that holds something is a member under its key, a list as an array of strings and a single
value as a string. A field that holds nothing has no member, and there are no others.

**Theorem (`json_lossless`).** The JSON report is one array and a line feed. It is read back as the
objects of the people in their order, and no other people have these objects. So different people
have different reports, whatever their values are.

No text between the quotes can be taken for more than a text, because the report writes its tree
(`writes_pretty`) and a text that writes a tree is read as that tree.
-/

namespace DirectoryLookup.Report

open Json (Node Writes decode)

/-! ## Objects -/

/-- The key of a field. Lists have the name of the field in the plural. -/
def key : Field → String
  | .email => "emails"
  | .phone => "phones"
  | .mobile => "mobiles"
  | .address => "addresses"
  | f => f.name

/-- `Holds f vs n`: what the field holds as a tree. -/
inductive Holds : Field → List String → Node → Prop
  | single {f : Field} {v : String} {n : Node} :
      f.isList = false → n.text? = some v → Holds f [v] n
  | several {f : Field} {vs : List String} {items : List Node} :
      f.isList = true → List.Forall₂ (fun v n => n.text? = some v) vs items →
      Holds f vs (.array items)

/-- The member of a field that holds something. -/
def IsMember (p : Person) (f : Field) (m : List Char × Node) : Prop :=
  decode m.1 = some (key f).toList ∧ Holds f (p.values f) m.2

/-- `Describes p n`: the tree is the object of the person. -/
inductive Describes (p : Person) : Node → Prop
  | mk {dn : List Char × Node} {members : List (List Char × Node)} :
      decode dn.1 = some "dn".toList → dn.2.text? = some p.dn →
      List.Forall₂ (IsMember p) (Field.all.filter fun f => p.values f ≠ []) members →
      Describes p (.object (dn :: members))

/-! ## What an object says of a person -/

theorem key_injective : Function.Injective key := by
  intro f g h
  have hnodup : (Field.all.map key).Nodup := by decide
  exact List.inj_on_of_nodup_map hnodup f.mem_all g.mem_all h

theorem eq_of_forall₂_text? {vs ws : List String} {items : List Node}
    (hv : List.Forall₂ (fun v n => Node.text? n = some v) vs items)
    (hw : List.Forall₂ (fun w n => Node.text? n = some w) ws items) : vs = ws := by
  induction hv generalizing ws with
  | nil =>
    cases hw
    rfl
  | cons hv _ ih =>
    cases hw with
    | cons hw hws =>
      rw [hv] at hw
      rw [Option.some.inj hw, ih hws]

theorem Holds.unique {f : Field} {vs ws : List String} {n : Node} (hv : Holds f vs n)
    (hw : Holds f ws n) : vs = ws := by
  cases hv with
  | single hf hv =>
    cases hw with
    | single _ hw =>
      rw [hv] at hw
      rw [Option.some.inj hw]
    | several hf' _ =>
      rw [hf] at hf'
      cases hf'
  | several hf hv =>
    cases hw with
    | single hf' _ =>
      rw [hf] at hf'
      cases hf'
    | several _ hw => exact eq_of_forall₂_text? hv hw

/-- Members say which fields they are of and what these hold. -/
theorem eq_of_forall₂_isMember {p q : Person} {fs gs : List Field}
    {members : List (List Char × Node)} (hp : List.Forall₂ (IsMember p) fs members)
    (hq : List.Forall₂ (IsMember q) gs members) :
    fs = gs ∧ ∀ f ∈ fs, p.values f = q.values f := by
  induction hp generalizing gs with
  | nil =>
    cases hq
    exact ⟨rfl, by simp⟩
  | @cons f m fs members hf _ ih =>
    cases hq with
    | @cons g _ gs _ hg hgs =>
      obtain ⟨rfl, hvalues⟩ := ih hgs
      have hkey : (key f).toList = (key g).toList := Option.some.inj (hf.1.symm.trans hg.1)
      obtain rfl := key_injective (String.toList_inj.1 hkey)
      exact ⟨rfl, List.forall_mem_cons.2 ⟨hf.2.unique hg.2, hvalues⟩⟩

/-- **An object describes one person at most.** -/
theorem Describes.unique {p q : Person} {n : Node} (hp : Describes p n) (hq : Describes q n) :
    p = q := by
  obtain ⟨-, hdn, hmembers⟩ := hp
  obtain ⟨-, hdn', hmembers'⟩ := hq
  obtain ⟨hfields, hvalues⟩ := eq_of_forall₂_isMember hmembers hmembers'
  refine Person.ext_values (Option.some.inj (hdn.symm.trans hdn')) fun f => ?_
  have hset : p.values f ≠ [] ↔ q.values f ≠ [] := by
    simpa [Field.mem_all] using congrArg (f ∈ ·) hfields
  by_cases hf : p.values f = []
  · rw [hf, not_not.1 fun h => hset.2 h hf]
  · exact hvalues f (by simpa [Field.mem_all] using hf)

/-! ## The object that is printed -/

/-- What is printed for the values of a field. -/
def fieldNode (f : Field) (vs : List String) : Node :=
  if f.isList then .array (vs.map Node.ofText) else Node.ofText (vs.headD "")

/-- The member that is printed for a field; none if the field holds nothing. -/
def fieldMembers (p : Person) (f : Field) : List (List Char × Node) :=
  if p.values f = [] then [] else [((key f).toList, fieldNode f (p.values f))]

theorem scalarMember_eq (k : String) (o : Option String) :
    scalarMember k o =
      if o.toList = [] then [] else [(k.toList, Node.ofText (o.toList.headD ""))] := by
  cases o <;> rfl

theorem listMember_eq (k : String) (vs : List String) :
    listMember k vs = if vs = [] then [] else [(k.toList, .array (vs.map Node.ofText))] := by
  cases vs <;> rfl

/-- A person is printed field by field. -/
theorem personNode_eq (p : Person) :
    personNode p =
      .object (("dn".toList, Node.ofText p.dn) :: Field.all.flatMap (fieldMembers p)) := by
  simp only [personNode, scalarMember_eq, listMember_eq, Field.all, List.flatMap_cons,
    List.flatMap_nil, List.append_nil, List.append_assoc]
  rfl

theorem encode_key (f : Field) : Json.encode (key f).toList = (key f).toList := by
  cases f <;> decide

theorem decode_key (f : Field) : decode (key f).toList = some (key f).toList := by
  have h := Json.decode_encode (key f).toList
  rwa [encode_key] at h

theorem forall₂_text?_ofText (vs : List String) :
    List.Forall₂ (fun v n => Node.text? n = some v) vs (vs.map Node.ofText) := by
  rw [List.forall₂_map_right_iff, List.forall₂_same]
  exact fun v _ => Node.text?_ofText v

/-- A scalar field holds one value at most. -/
theorem values_of_isScalar (p : Person) {f : Field} (h : f.isList = false)
    (hne : p.values f ≠ []) : ∃ v, p.values f = [v] := by
  have one {o : Option String} (ho : o.toList ≠ []) : ∃ v, o.toList = [v] := by
    cases o with
    | none => exact absurd rfl ho
    | some v => exact ⟨v, rfl⟩
  cases f <;> first | exact one hne | cases h

theorem holds_fieldNode {p : Person} {f : Field} (hne : p.values f ≠ []) :
    Holds f (p.values f) (fieldNode f (p.values f)) := by
  unfold fieldNode
  cases hf : f.isList with
  | true => exact .several hf (forall₂_text?_ofText _)
  | false =>
    obtain ⟨v, hv⟩ := values_of_isScalar p hf hne
    rw [hv]
    exact .single hf (Node.text?_ofText v)

theorem forall₂_isMember_fieldMembers (p : Person) (fs : List Field) :
    List.Forall₂ (IsMember p) (fs.filter fun f => p.values f ≠ [])
      (fs.flatMap (fieldMembers p)) := by
  induction fs with
  | nil => exact .nil
  | cons f fs ih =>
    rw [List.flatMap_cons, fieldMembers]
    by_cases hf : p.values f = []
    · rw [if_pos hf, List.filter_cons_of_neg (by simpa using hf)]
      exact ih
    · rw [if_neg hf, List.filter_cons_of_pos (by simpa using hf)]
      exact .cons ⟨decode_key f, holds_fieldNode hf⟩ ih

/-- **The object that is printed for a person describes the person.** -/
theorem describes_personNode (p : Person) : Describes p (personNode p) := by
  rw [personNode_eq]
  exact .mk rfl (Node.text?_ofText p.dn) (forall₂_isMember_fieldMembers p Field.all)

theorem writable_fieldNode (f : Field) (vs : List String) : (fieldNode f vs).Writable := by
  unfold fieldNode
  split
  · refine .array fun n hn => ?_
    obtain ⟨v, -, rfl⟩ := List.mem_map.1 hn
    exact Json.writable_ofText v
  · exact Json.writable_ofText _

theorem writable_personNode (p : Person) : (personNode p).Writable := by
  have member : ∀ m ∈ Field.all.flatMap (fieldMembers p), Json.Raw m.1 ∧ m.2.Writable := by
    intro m hm
    obtain ⟨f, -, hm⟩ := List.mem_flatMap.1 hm
    unfold fieldMembers at hm
    split at hm
    · cases hm
    · obtain rfl := List.mem_singleton.1 hm
      exact ⟨Json.raw_of_encode_eq (encode_key f), writable_fieldNode f _⟩
  rw [personNode_eq]
  refine .object ?_ ?_ <;> rw [List.forall_mem_cons]
  · exact ⟨Json.raw_of_encode_eq rfl, fun m hm => (member m hm).1⟩
  · exact ⟨Json.writable_ofText p.dn, fun m hm => (member m hm).2⟩

/-! ## The report -/

/-- The tree of the report. -/
def tree (people : List Person) : Node :=
  .array (people.map personNode)

theorem writes_tree (people : List Person) : Writes (tree people) ((tree people).pretty 0) := by
  refine Json.writes_pretty (.array fun n hn => ?_) 0
  obtain ⟨p, -, rfl⟩ := List.mem_map.1 hn
  exact writable_personNode p

/-- The report is read back as its tree; the line feed behind it is a blank. -/
theorem read?_people (people : List Person) :
    Node.read? (Report.people true people).toList = some (tree people) := by
  have hfeed : Json.IsBlank ['\n'] := Json.isBlank_cons rfl Json.isBlank_nil
  have hread := Json.read?_of_writes Json.isBlank_nil (writes_tree people) hfeed
  rw [Report.people, if_pos rfl, json, String.toList_ofList]
  rwa [List.nil_append] at hread

/-- The objects that are printed are those of the people printed. -/
theorem forall₂_describes_iff {people people' : List Person} :
    List.Forall₂ Describes people' (people.map personNode) ↔ people' = people := by
  rw [List.forall₂_map_right_iff]
  constructor
  · intro h
    induction h with
    | nil => rfl
    | cons hp _ ih => rw [hp.unique (describes_personNode _), ih]
  · rintro rfl
    exact List.forall₂_same.2 fun p _ => describes_personNode p

/-- **The JSON report loses nothing**: it is an array of the objects of the people and a line feed,
and is the report of no other people. -/
theorem json_lossless (people : List Person) :
    (∃ text nodes, Report.people true people = String.ofList text ++ "\n" ∧
      Writes (.array nodes) text ∧
      Node.read? (Report.people true people).toList = some (.array nodes) ∧
      ∀ people', List.Forall₂ Describes people' nodes ↔ people' = people) ∧
    ∀ people', Report.people true people = Report.people true people' ↔ people = people' := by
  refine ⟨⟨_, people.map personNode, ?_, writes_tree people, read?_people people,
    fun people' => forall₂_describes_iff⟩, fun people' => ⟨fun h => ?_, fun h => h ▸ rfl⟩⟩
  · rw [Report.people, if_pos rfl, json, String.ofList_append]
    rfl
  · have htree : tree people = tree people' := by
      rw [← Option.some_inj, ← read?_people, ← read?_people, h]
    rw [← forall₂_describes_iff, ← Node.array.inj htree]
    exact forall₂_describes_iff.2 rfl

/-- An empty text is set, and a text is no structure. -/
example :
    Report.people true [{ dn := "\",\"uid\":\"", uid := some "", emails := ["\n", "]"] }] =
      "[\n  \x7b\n    \"dn\": \"\\\",\\\"uid\\\":\\\"\",\n    \"uid\": \"\",\n    \"emails\": [\n" ++
        "      \"\\n\",\n      \"]\"\n    ]\n  \x7d\n]\n" := by
  decide

end DirectoryLookup.Report
