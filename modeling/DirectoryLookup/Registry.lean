import DirectoryLookup.Aliases
import DirectoryLookup.Failure
import DirectoryLookup.Field

/-!
# The registry of fields and attributes

A registry relates fields to attribute names in both directions. A field may stand for several
attributes; an attribute belongs to one field at most.

Declaring a field gives up the attributes of its earlier declaration that it still owns, and takes
the ones now listed, also from another field. The other field's own list stays as it was declared.

Main statement: `Coherent.owner_declare`, who owns an attribute after one more declaration. A field
owns nothing that it does not list (`coherent_ofDeclarations`), so it gives up all that it owned.
-/

namespace DirectoryLookup

/-- Fields and the attribute names they stand for. -/
structure Registry where
  /-- The attribute names a field was last declared with, or `none` if it never was. -/
  aliases : Field → Option (List String)
  /-- The field that owns an attribute, by the attribute's folded name. -/
  owner : String → Option Field

namespace Registry

/-- Nothing is declared. -/
def empty : Registry :=
  ⟨fun _ => none, fun _ => none⟩

instance : Inhabited Registry := ⟨empty⟩

/-- The attribute names a field stands for, in the order declared; none if it is undeclared. -/
def attributesFor (r : Registry) (field : Field) : List String :=
  (r.aliases field).getD []

/-- The owners once `field` has given up an attribute. One that belongs to another field stays
there. -/
def release (field : Field) (owner : String → Option Field) (name : String) :
    String → Option Field :=
  let key := Text.fold name
  fun a => (owner a).filter fun f => f ≠ field ∨ a ≠ key

/-- The owners once `field` has taken an attribute. -/
def assign (field : Field) (owner : String → Option Field) (name : String) :
    String → Option Field :=
  let key := Text.fold name
  fun a => if a = key then some field else owner a

/-- Declares that `field` stands for `names`, in place of what it stood for before. -/
def declare (r : Registry) (field : Field) (names : List String) : Registry :=
  let released := (r.attributesFor field).foldl (release field) r.owner
  { aliases := fun f => if f = field then some names else r.aliases f
    owner := names.foldl (assign field) released }

/-- The registry after a sequence of declarations, each a field with its alias declaration. -/
def ofDeclarations (declarations : List (Field × String)) : Registry :=
  declarations.foldl (fun r d => r.declare d.1 (Aliases.read d.2)) empty

/-! ## Questions -/

/-- The attribute names of the field with this name, unless it is unknown or undeclared. -/
def attributesForName? (r : Registry) (name : String) : Option (List String) :=
  (Field.ofName? name).bind r.aliases

/-- The field that an attribute belongs to, in whatever case its name is spelled. -/
def fieldFor? (r : Registry) (attr : String) : Option Field :=
  r.owner (Text.fold attr)

/-- Every attribute name declared, field by field: what a search asks the server for. -/
def attributeNames (r : Registry) : List String :=
  Field.all.flatMap r.attributesFor

/-! ## The registry of a person -/

/-- Each field with its default alias declaration. -/
def personDeclarations : List (Field × String) :=
  Field.all.map fun f => (f, f.defaultAliases)

/-- The registry in which every field has its default declaration. -/
def person : Registry :=
  ofDeclarations personDeclarations

/-- Whether an override names a field and declares at least one attribute for it. -/
def isUsable (override : String × String) : Bool :=
  (Field.ofName? override.1).isSome && !(Aliases.read override.2).isEmpty

/-- The smaller of two keys, where there are two. -/
def smallerKey (least : Option String) (key : String) : Option String :=
  match least with
  | none => some key
  | some other => if key < other then some key else some other

/-- The smallest name, by code points, among the overrides that cannot be used. -/
def firstUnusable? (overrides : List (String × String)) : Option String :=
  ((overrides.filter (!isUsable ·)).map Prod.fst).foldl smallerKey none

/-- The default declarations with some replaced. A replacement keeps the place of the declaration
it replaces, so the order of the overrides has no part in which field an attribute goes to. -/
def withOverrides (overrides : List (String × String)) : Except Failure Registry :=
  match firstUnusable? overrides with
  | some name => .error (.configuration ("schema." ++ name))
  | none => .ok <| ofDeclarations <| Field.all.map fun f =>
      (f, (overrides.lookup f.name).getD f.defaultAliases)

/-! ## Declarations and questions -/

variable (r : Registry)

@[simp] theorem aliases_declare (field f : Field) (names : List String) :
    (r.declare field names).aliases f = if f = field then some names else r.aliases f := rfl

section Owners

variable (field : Field) (owner : String → Option Field) (a : String)

theorem release_apply (name : String) :
    release field owner name a =
      if a = Text.fold name ∧ owner a = some field then none else owner a := by
  unfold release
  cases owner a with
  | none => simp
  | some f => by_cases ha : a = Text.fold name <;> by_cases hf : f = field <;> simp [ha, hf]

/-- What a field owned under one of the names given up belongs to nobody. -/
theorem foldl_release_apply (names : List String) :
    names.foldl (release field) owner a =
      if a ∈ names.map Text.fold ∧ owner a = some field then none else owner a := by
  induction names generalizing owner with
  | nil => simp
  | cons name names ih =>
    rw [List.foldl_cons, ih, release_apply]
    by_cases ha : a = Text.fold name <;> simp [ha]

/-- The names taken belong to the field. -/
theorem foldl_assign_apply (names : List String) :
    names.foldl (assign field) owner a =
      if a ∈ names.map Text.fold then some field else owner a := by
  induction names generalizing owner with
  | nil => simp
  | cons name names ih =>
    rw [List.foldl_cons, ih]
    by_cases ha : a = Text.fold name <;> simp [assign, ha]

end Owners

@[simp] theorem owner_declare (field : Field) (names : List String) (a : String) :
    (r.declare field names).owner a =
      if a ∈ names.map Text.fold then some field
      else if a ∈ (r.attributesFor field).map Text.fold ∧ r.owner a = some field then none
      else r.owner a := by
  unfold declare
  dsimp only
  rw [foldl_assign_apply, foldl_release_apply]

theorem ofDeclarations_concat (ds : List (Field × String)) (d : Field × String) :
    ofDeclarations (ds ++ [d]) = (ofDeclarations ds).declare d.1 (Aliases.read d.2) := by
  simp [ofDeclarations]

/-- Every attribute that a field owns is one that the field lists. -/
def Coherent (r : Registry) : Prop :=
  ∀ a f, r.owner a = some f → a ∈ (r.attributesFor f).map Text.fold

theorem coherent_empty : Coherent empty := by
  intro a f h
  simp [empty] at h

/-- **A field declared anew gives up all that it owned**, where it owns only what it lists. -/
theorem Coherent.owner_declare {r : Registry} (h : r.Coherent) (field : Field)
    (names : List String) (a : String) :
    (r.declare field names).owner a =
      if a ∈ names.map Text.fold then some field
      else if r.owner a = some field then none
      else r.owner a := by
  rw [Registry.owner_declare]
  by_cases howner : r.owner a = some field
  · simp [howner, h a field howner]
  · simp [howner]

theorem Coherent.declare {r : Registry} (h : r.Coherent) (field : Field) (names : List String) :
    (r.declare field names).Coherent := by
  intro a f ha
  rw [h.owner_declare] at ha
  split at ha
  · next hmem =>
    obtain rfl := Option.some.inj ha
    simpa [attributesFor] using hmem
  · split at ha
    · simp at ha
    · have hf : f ≠ field := by
        rintro rfl
        contradiction
      simpa [attributesFor, hf] using h a f ha

/-- **What a field owns it lists**, after any declarations. -/
theorem coherent_ofDeclarations (ds : List (Field × String)) : (ofDeclarations ds).Coherent := by
  unfold ofDeclarations
  generalize hr : empty = r
  have h : r.Coherent := hr ▸ coherent_empty
  clear hr
  induction ds generalizing r with
  | nil => exact h
  | cons d ds ih => exact ih _ (h.declare d.1 _)

end Registry

end DirectoryLookup
