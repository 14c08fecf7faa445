import DirectoryLookup.Program
import DirectoryLookup.Proofs.Settings.Values

/-!
# Settings from one variable

With one variable, and no file, settings load exactly if the value of the variable fits the setting
that it names (`exists_load?_iff`), and the setting is this value converted (`isConversion_load?`).

**Theorem (`takenExactly_iff`).** A variable with the digits of a number sets a setting that is a
number to just this number, if it fits the setting's width, and makes loading fail otherwise. The
limit of time is the exception. A number of `2 ^ 63` or more is rounded to a multiple of 2048 and
cut off at the greatest number of 64 bits, so that it is never refused, and taken as it is only if
it is such a multiple or the greatest number.

**Theorem (`verbatim_iff`).** A variable sets a setting that is a text to the text of the value it
stands for. That is the variable's own text, as the command line would set it, exactly if the text
is kept.
-/

namespace DirectoryLookup.Settings

open Number

variable {name text : String} {p : Place} {s : Settings}

/-! ## One variable -/

theorem isLayered_single (h : Names name p) (text : String) : IsLayered [] [(name, text)] where
  plain := nofun
  once := .table Entries.distinct_nil nofun
  environment :=
    { names := fun v hv _ => ⟨p, by rwa [List.mem_singleton.1 hv]⟩
      distinct := List.pairwise_singleton _ _ }

/-- One variable sets its place and leaves the others their defaults. -/
theorem effective?_single (h : Names name p) (text : String) (q : Place) :
    effective? [] [(name, text)] q =
      if q = p then some (valueOf text) else valueAt? defaultRoot q := by
  have hfile : valueAt? (.table []) q = none := rfl
  have hnone : environmentValue? [] q = none := rfl
  rw [effective?, environmentValue?_cons, hfile, hnone]
  by_cases hq : q = p
  · subst hq
    simp [h]
  · have hnot : ¬Names name q := fun h' => hq (h'.unique h)
    simp [hq, hnot]

/-- Every default passes its own conversion. -/
theorem fits_default {q : Place} {kind : Kind} {value : Raw} (hkind : kindOf? q = some kind)
    (hvalue : valueAt? defaultRoot q = some value) : kind.fits value = true :=
  (exists_ofTable?_iff isSectioned_defaultRoot isComplete_defaultRoot).1
    ⟨{}, ofTable?_toTable {}⟩ q kind value hkind hvalue

/-- **Settings load from one variable if its value fits the setting.** -/
theorem exists_load?_iff (h : Names name p) {kind : Kind} (hkind : kindOf? p = some kind)
    (text : String) :
    (∃ s, load? none [(name, text)] = some s) ↔ kind.fits (valueOf text) = true := by
  have hlayered := isLayered_single h text
  rw [load?, hlayered.exists_layered?_iff]
  constructor
  · intro hfits
    refine hfits p kind (valueOf text) hkind ?_
    rw [effective?_single h, if_pos rfl]
  · intro hfits q kind' value hkind' hvalue
    rw [effective?_single h] at hvalue
    split at hvalue
    · next hq =>
      subst hq
      obtain rfl := Option.some.inj (hkind.symm.trans hkind')
      obtain rfl := Option.some.inj hvalue
      exact hfits
    · exact fits_default hkind' hvalue

theorem isConversion_load? (h : Names name p) (hs : load? none [(name, text)] = some s) :
    IsConversion (effective? [] [(name, text)]) s :=
  (isLayered_single h text).isConversion hs

/-! ## Numbers -/

/-- The settings that are numbers. -/
inductive NumberSetting
  | port
  | sizeLimit
  | timeLimit
  | pageSize
  deriving DecidableEq, Repr

namespace NumberSetting

def place : NumberSetting → Place
  | port => ("directory", "port")
  | sizeLimit => ("search", "size_limit")
  | timeLimit => ("search", "time_limit_secs")
  | pageSize => ("search", "page_size")

def kind : NumberSetting → Kind
  | port => .uint16
  | sizeLimit => .uint32
  | timeLimit => .uint64
  | pageSize => .uint32

/-- The number of bits. -/
def width : NumberSetting → Nat
  | port => 16
  | sizeLimit => 32
  | timeLimit => 64
  | pageSize => 32

def valueIn : NumberSetting → Settings → Nat
  | port, s => s.port.toNat
  | sizeLimit, s => s.sizeLimit.toNat
  | timeLimit, s => s.timeLimit.toNat
  | pageSize, s => s.pageSize.toNat

/-- A number is taken as it is if it fits into the width, and refused if it does not. -/
def TakenExactly (k : NumberSetting) (n : Nat) (loaded : Option Settings) : Prop :=
  (n < 2 ^ k.width → ∃ s, loaded = some s ∧ k.valueIn s = n) ∧ (2 ^ k.width ≤ n → loaded = none)

variable {k : NumberSetting} {r : Raw} {m : Nat}

theorem kindOf?_place (k : NumberSetting) : kindOf? k.place = some k.kind := by
  cases k <;> rfl

theorem fits_iff (k : NumberSetting) (h : r.number? = some m) :
    k.kind.fits r = true ↔ m < 2 ^ k.width := by
  cases k <;> simp [kind, width, Kind.fits, Raw.uint16?, Raw.uint32?, Raw.uint64?, h,
    UInt16.size, UInt32.size, UInt64.size]

/-- A setting that is a number is the number of its value. -/
theorem valueIn_eq {value? : Place → Option Raw} (hs : IsConversion value? s)
    (hvalue : value? k.place = some r) (h : r.number? = some m) : k.valueIn s = m := by
  have hbind {α : Type} {convert : Raw → Option α} {a : α}
      (ha : (value? k.place).bind convert = some a) : convert r = some a := by
    rwa [hvalue] at ha
  have hnumber : r.number? = some (k.valueIn s) := by
    cases k with
    | port => exact Raw.uint16?_eq_some_iff.1 (hbind hs.port)
    | sizeLimit => exact Raw.uint32?_eq_some_iff.1 (hbind hs.sizeLimit)
    | timeLimit => exact Raw.uint64?_eq_some_iff.1 (hbind hs.timeLimit)
    | pageSize => exact Raw.uint32?_eq_some_iff.1 (hbind hs.pageSize)
  exact Option.some.inj (hnumber.symm.trans h)

/-- **The number of the value decides**, whether settings load and what the setting is. -/
theorem load?_number (hname : Names name k.place) (h : (valueOf text).number? = some m) :
    (m < 2 ^ k.width → ∃ s, load? none [(name, text)] = some s ∧ k.valueIn s = m) ∧
      (2 ^ k.width ≤ m → load? none [(name, text)] = none) := by
  have hexists := exists_load?_iff hname (kindOf?_place k) text
  rw [fits_iff k h] at hexists
  constructor
  · intro hm
    obtain ⟨s, hs⟩ := hexists.2 hm
    have hvalue : effective? [] [(name, text)] k.place = some (valueOf text) := by
      rw [effective?_single hname, if_pos rfl]
    exact ⟨s, hs, valueIn_eq (isConversion_load? hname hs) hvalue h⟩
  · intro hm
    rw [Option.eq_none_iff_forall_ne_some]
    intro s hs
    exact absurd (hexists.1 ⟨s, hs⟩) (Nat.not_lt.2 hm)

/-! ### Numbers that are taken as they are -/

theorem takenExactly_some_iff {n : Nat} :
    k.TakenExactly n (some s) ↔ n < 2 ^ k.width ∧ k.valueIn s = n := by
  constructor
  · rintro ⟨htaken, hrefused⟩
    have hlt : n < 2 ^ k.width := by
      by_contra hge
      cases hrefused (Nat.not_lt.1 hge)
    obtain ⟨s', hs', hvalue⟩ := htaken hlt
    obtain rfl := Option.some.inj hs'
    exact ⟨hlt, hvalue⟩
  · rintro ⟨hlt, hvalue⟩
    exact ⟨fun _ => ⟨s, rfl, hvalue⟩, fun hge => absurd hlt (Nat.not_lt.2 hge)⟩

/-- Numbers that 63 bits hold stand for themselves. -/
theorem takenExactly_of_lt (hname : Names name k.place) {n : Nat} (hn : n < 2 ^ 63) :
    k.TakenExactly n (load? none [(name, toString n)]) := by
  have hnumber := number?_valueOf_digits n
  rw [if_pos hn] at hnumber
  exact load?_number hname hnumber

/-- No setting of fewer bits takes a greater one, rounded or not. -/
theorem takenExactly_of_ne (hname : Names name k.place) (hk : k ≠ timeLimit) {n : Nat}
    (hn : 2 ^ 63 ≤ n) : k.TakenExactly n (load? none [(name, toString n)]) := by
  have hnumber := number?_valueOf_digits n
  rw [if_neg (Nat.not_lt.2 hn)] at hnumber
  have hwidth : 2 ^ k.width ≤ 2 ^ 32 := by
    refine Nat.pow_le_pow_right (by decide) ?_
    cases k with
    | timeLimit => exact absurd rfl hk
    | port | sizeLimit | pageSize => decide
  have hmax : 2 ^ 32 ≤ numberMax := by decide
  have hrounded : 2 ^ 52 ≤ roundDiv n 2048 := le_roundDiv (by decide) (by omega)
  rw [(load?_number hname hnumber).2 (by omega)]
  exact ⟨fun hlt => absurd hlt (by omega), fun _ => rfl⟩

/-- A limit of time takes a greater one rounded and cut off. -/
theorem load?_timeLimit (hname : Names name timeLimit.place) {n : Nat} (hn : 2 ^ 63 ≤ n) :
    ∃ s, load? none [(name, toString n)] = some s ∧
      s.timeLimit.toNat = min (2 ^ 64 - 1) (2048 * roundDiv n 2048) := by
  have hnumber := number?_valueOf_digits n
  rw [if_neg (Nat.not_lt.2 hn)] at hnumber
  exact (load?_number hname hnumber).1 (Nat.lt_of_le_of_lt (Nat.min_le_left _ _) (by decide))

/-- Of the numbers that 64 bits hold and 63 do not, those that rounding and cutting off leave. -/
theorem min_roundDiv_eq_iff {n : Nat} (hn : 2 ^ 63 ≤ n) (hn' : n < 2 ^ 64) :
    min (2 ^ 64 - 1) (2048 * roundDiv n 2048) = n ↔ n = 2 ^ 64 - 1 ∨ 2048 ∣ n := by
  obtain ⟨hlow, hhigh, -⟩ := (roundDiv_eq_iff (by decide)).1 (rfl : roundDiv n 2048 = _)
  omega

/-- **Numbers are taken as they are or refused**, except for limits of time that 63 bits do not
hold. -/
theorem takenExactly_iff (hname : Names name k.place) (n : Nat) :
    (k.TakenExactly n (load? none [(name, toString n)]) ↔
      k ≠ timeLimit ∨ n < 2 ^ 63 ∨ n = 2 ^ 64 - 1 ∨ n < 2 ^ 64 ∧ 2048 ∣ n) ∧
    (k = timeLimit → 2 ^ 63 ≤ n → ∃ s, load? none [(name, toString n)] = some s ∧
      s.timeLimit.toNat = min (2 ^ 64 - 1) (2048 * roundDiv n 2048)) := by
  by_cases hn : n < 2 ^ 63
  · exact ⟨iff_of_true (takenExactly_of_lt hname hn) (.inr (.inl hn)),
      fun _ hn' => absurd hn (Nat.not_lt.2 hn')⟩
  have hn' := Nat.not_lt.1 hn
  by_cases hk : k = timeLimit
  · subst hk
    obtain ⟨s, hs, hvalue⟩ := load?_timeLimit hname hn'
    refine ⟨?_, fun _ _ => ⟨s, hs, hvalue⟩⟩
    have htaken : timeLimit.TakenExactly n (some s) ↔
        n < 2 ^ 64 ∧ min (2 ^ 64 - 1) (2048 * roundDiv n 2048) = n := by
      rw [takenExactly_some_iff, valueIn, hvalue]
      rfl
    rw [hs, htaken]
    constructor
    · rintro ⟨hlt, h⟩
      rcases (min_roundDiv_eq_iff hn' hlt).1 h with h | h
      · exact .inr (.inr (.inl h))
      · exact .inr (.inr (.inr ⟨hlt, h⟩))
    · rintro (h | h | h | ⟨hlt, h⟩)
      · exact absurd rfl h
      · exact absurd h hn
      · have hlt : n < 2 ^ 64 := by omega
        exact ⟨hlt, (min_roundDiv_eq_iff hn' hlt).2 (.inl h)⟩
      · exact ⟨hlt, (min_roundDiv_eq_iff hn' hlt).2 (.inr h)⟩
  · exact ⟨iff_of_true (takenExactly_of_ne hname hk hn') (.inl hk), fun h => absurd h hk⟩

/-- The port of encrypted connections, which fits. -/
theorem takenExactly_iff_port :
    Names "DIRSEARCH__DIRECTORY__PORT" port.place ∧
      port.TakenExactly 636 (load? none [("DIRSEARCH__DIRECTORY__PORT", toString 636)]) := by
  have hname : Names "DIRSEARCH__DIRECTORY__PORT" port.place := by decide +kernel
  exact ⟨hname, (takenExactly_iff hname 636).1.2 (.inl (by decide))⟩

/-- A limit of time that fits is rounded, though a file sets it as it is, and one that does not fit
is cut off. -/
theorem not_takenExactly_timeLimit :
    let load (n : Nat) := load? none [("DIRSEARCH__SEARCH__TIME_LIMIT_SECS", toString n)]
    let file := "\x7b\"search\":\x7b\"time_limit_secs\":9223372036854775809\x7d\x7d"
    Names "DIRSEARCH__SEARCH__TIME_LIMIT_SECS" timeLimit.place ∧
      ((load (2 ^ 63 + 1)).map timeLimit.valueIn = some (2 ^ 63) ∧
        ¬timeLimit.TakenExactly (2 ^ 63 + 1) (load (2 ^ 63 + 1)) ∧
        (load? (some (.json, file)) []).map timeLimit.valueIn = some (2 ^ 63 + 1)) ∧
      (load (2 ^ 64)).map timeLimit.valueIn = some (2 ^ 64 - 1) ∧
        ¬timeLimit.TakenExactly (2 ^ 64) (load (2 ^ 64)) := by
  intro load file
  have hrounded : (load (2 ^ 63 + 1)).map timeLimit.valueIn = some (2 ^ 63) := by decide +kernel
  have hcut : (load (2 ^ 64)).map timeLimit.valueIn = some (2 ^ 64 - 1) := by decide +kernel
  refine ⟨by decide +kernel, ⟨hrounded, fun h => ?_, by decide +kernel⟩, hcut, fun h => ?_⟩
  · obtain ⟨s, hs, hvalue⟩ := h.1 (by decide)
    rw [hs, Option.map_some, hvalue] at hrounded
    cases hrounded
  · rw [h.2 (by decide)] at hcut
    cases hcut

end NumberSetting

/-! ## Texts -/

/-- The settings that are texts, apart from the declarations of the schema. -/
inductive TextSetting
  | host
  | searchBase
  deriving DecidableEq, Repr

namespace TextSetting

def place : TextSetting → Place
  | host => ("directory", "host")
  | searchBase => ("directory", "search_base")

def textIn : TextSetting → Settings → String
  | host, s => s.host
  | searchBase, s => s.searchBase

/-- The option of the command line that sets it. -/
def option : TextSetting → String
  | host => "--host"
  | searchBase => "--base"

def param : TextSetting → Arguments.Param
  | host => .host
  | searchBase => .base

/-- The arguments with this option alone. -/
def arguments : TextSetting → String → Arguments
  | host, text => { host := some text }
  | searchBase, text => { base := some text }

variable {k : TextSetting}

theorem kindOf?_place (k : TextSetting) : kindOf? k.place = some .text := by
  cases k <;> rfl

/-- A setting that is a text is the text of its value. -/
theorem textIn_eq {value? : Place → Option Raw} {r : Raw} (hs : IsConversion value? s)
    (hvalue : value? k.place = some r) : r.text? = some (k.textIn s) := by
  have hbind {a : String} (ha : (value? k.place).bind Raw.text? = some a) : r.text? = some a := by
    rwa [hvalue] at ha
  cases k with
  | host => exact hbind hs.host
  | searchBase => exact hbind hs.searchBase

theorem isSome_text?_of_isSingle {r : Raw} (h : r.IsSingle) : r.text?.isSome = true := by
  cases h <;> rfl

/-- **Any variable is taken for a text**, by the text of its value. -/
theorem load?_text (hname : Names name k.place) (text : String) :
    ∃ s, load? none [(name, text)] = some s ∧ (valueOf text).text? = some (k.textIn s) := by
  obtain ⟨s, hs⟩ := (exists_load?_iff hname (kindOf?_place k) text).2
    (isSome_text?_of_isSingle (isSingle_valueOf text))
  have hvalue : effective? [] [(name, text)] k.place = some (valueOf text) := by
    rw [effective?_single hname, if_pos rfl]
  exact ⟨s, hs, textIn_eq (isConversion_load? hname hs) hvalue⟩

/-! ### The command line -/

theorem takeAll_cons {state state' : Arguments.State} {arg : String} (hne : arg ≠ "--")
    (h : state.take arg = .ok state') (args : List String) :
    state.takeAll (arg :: args) = state'.takeAll args := by
  rw [Arguments.State.takeAll, h]
  · rfl
  · exact hne

/-- An option of the command line with its value attached. -/
theorem read_attached (k : TextSetting) (text : String) :
    Arguments.read [k.option ++ "=" ++ text] = .ok (k.arguments text) := by
  have hne : k.option ++ "=" ++ text ≠ "--" := by
    intro h
    have := congrArg (fun s => s.toList.length) h
    cases k <;> simp [option] at this
  have htake : ({} : Arguments.State).take (k.option ++ "=" ++ text) =
      .ok { found := k.arguments text } := by
    cases k <;> simp [Arguments.State.take, option, Arguments.State.takeLong] <;> rfl
  rw [Arguments.read, takeAll_cons hne htake]
  cases k <;> rfl

/-- What does not start with a hyphen is no option or switch. -/
theorem take_plain (state : Arguments.State) {text : String} (h : text.toList.head? ≠ some '-') :
    state.take text = state.takePlain text := by
  unfold Arguments.State.take
  split
  · next heq => simp [heq] at h
  · next heq => simp [heq] at h
  · rfl

/-- The value may be an argument of its own, unless it looks like an option. -/
theorem read_separate (k : TextSetting) {text : String} (h : text.toList.head? ≠ some '-') :
    Arguments.read [k.option, text] = .ok (k.arguments text) := by
  have hne : text ≠ "--" := by
    rintro rfl
    exact h rfl
  have hne' : k.option ≠ "--" := by cases k <;> decide
  have hoption : ({} : Arguments.State).take k.option =
      .ok { waiting := some (k.param, none) } := by
    cases k <;> rfl
  have hvalue : ({ waiting := some (k.param, none) } : Arguments.State).take text =
      .ok { waiting := some (k.param, some text) } :=
    take_plain _ h
  rw [Arguments.read, takeAll_cons hne' hoption, takeAll_cons hne hvalue]
  cases k <;> rfl

/-- **A text is taken verbatim exactly if it is kept**; from the command line it always is. -/
theorem verbatim_iff (hname : Names name k.place) (text : String) :
    (∃ s, load? none [(name, text)] = some s ∧ (valueOf text).text? = some (k.textIn s) ∧
      (k.textIn s = text ↔ IsKept text)) ∧
    ∃ a, Arguments.read [k.option ++ "=" ++ text] = .ok a ∧
      (text.toList.head? ≠ some '-' → Arguments.read [k.option, text] = .ok a) ∧
      ∀ s, k.textIn (Program.overridden s a) = text := by
  obtain ⟨s, hs, htext⟩ := load?_text hname text
  refine ⟨⟨s, hs, htext, ?_⟩, k.arguments text, read_attached k text, read_separate k, fun s => ?_⟩
  · rw [← text?_valueOf_eq_iff, htext, Option.some.injEq]
  · cases k <;> rfl

/-- A host name is kept. -/
theorem verbatim_iff_host :
    Names "DIRSEARCH__DIRECTORY__HOST" host.place ∧
      "ldap.test.invalid".toList.head? ≠ some '-' ∧
      (∃ s, load? none [("DIRSEARCH__DIRECTORY__HOST", "ldap.test.invalid")] = some s ∧
        s.host = "ldap.test.invalid") ∧
      ∃ a, Arguments.read ["--host", "ldap.test.invalid"] = .ok a ∧
        (Program.overridden {} a).host = "ldap.test.invalid" := by
  have hname : Names "DIRSEARCH__DIRECTORY__HOST" host.place := by decide +kernel
  have hhead : "ldap.test.invalid".toList.head? ≠ some '-' := by decide
  have hkept : IsKept "ldap.test.invalid" := .word (by constructor <;> decide +kernel)
  obtain ⟨⟨s, hs, -, hiff⟩, a, -, hread, hoverridden⟩ := verbatim_iff hname "ldap.test.invalid"
  exact ⟨hname, hhead, ⟨s, hs, hiff.2 hkept⟩, a, hread hhead, hoverridden {}⟩

/-- A text that reads as a number loses its zeros. The command line keeps them. -/
theorem not_verbatim :
    (Names "DIRSEARCH__DIRECTORY__HOST" host.place ∧
      (load? none [("DIRSEARCH__DIRECTORY__HOST", "10.10")]).map host.textIn = some "10.1" ∧
      ∃ a, Arguments.read ["--host", "10.10"] = .ok a ∧
        (Program.overridden {} a).host = "10.10") ∧
    (Names "DIRSEARCH__DIRECTORY__SEARCH_BASE" searchBase.place ∧
      (load? none [("DIRSEARCH__DIRECTORY__SEARCH_BASE", "007")]).map searchBase.textIn =
        some "7" ∧
      ∃ a, Arguments.read ["--base", "007"] = .ok a ∧
        (Program.overridden {} a).searchBase = "007") := by
  refine ⟨⟨by decide +kernel, by decide +kernel, { host := some "10.10" }, ?_, rfl⟩,
    by decide +kernel, by decide +kernel, { base := some "007" }, ?_, rfl⟩
  · exact read_separate host (by decide)
  · exact read_separate searchBase (by decide)

end TextSetting

end DirectoryLookup.Settings
