import SpotQueue.DistinctTables
import SpotQueue.GuestBodies
import SpotQueue.StaffIsolation
import Mathlib.Data.List.DropRight

namespace SpotQueue.CanonicalBodies

open SpotQueue.Entity SpotQueue.StaffApi SpotQueue.TableBodies SpotQueue.DistinctTables
open SpotQueue.GuestBodies
open SpotQueue.NumberText (MAX_SAFE_INTEGER)

/-- A body is let through exactly where it spells well-formed data, which is what it is
let through as, and such data spelled out again is let through as it is. -/
structure Normalizes {α : Type} (schema : Option Json → Except (List Issue) α)
    (spells : Option Json → α → Prop) (spell : α → Json) (wellFormed : α → Prop) : Prop where
  accepts : ∀ value a, schema value = .ok a ↔ spells value a ∧ wellFormed a
  complete : ∀ a, wellFormed a → schema (some (spell a)) = .ok a

theorem Normalizes.sound {α : Type} {schema : Option Json → Except (List Issue) α}
    {spells : Option Json → α → Prop} {spell : α → Json} {wellFormed : α → Prop}
    (h : Normalizes schema spells spell wellFormed) (value : Option Json) (a : α)
    (ha : schema value = .ok a) : wellFormed a :=
  ((h.accepts value a).mp ha).2

/-- The same for one field: what its checks let be read, and how that is spelled. -/
structure Reads {α : Type} (issues : Option Json → List Issue) (read : Option Json → α)
    (spells : Option Json → α → Prop) (spell : α → Option Json) (P : α → Prop) : Prop where
  reads : ∀ {value a}, issues value = [] ∧ read value = a ↔ spells value a ∧ P a
  spelled : ∀ {a}, P a → spells (spell a) a

section reads

variable {α : Type} {issues : Option Json → List Issue} {read : Option Json → α}
  {spells : Option Json → α → Prop} {spell : α → Option Json} {P Q : α → Prop}

theorem Reads.silent (h : Reads issues read spells spell P) {a : α} (ha : P a) :
    issues (spell a) = [] :=
  (h.reads.mpr ⟨h.spelled ha, ha⟩).1

theorem Reads.faithful (h : Reads issues read spells spell P) {a : α} (ha : P a) :
    read (spell a) = a :=
  (h.reads.mpr ⟨h.spelled ha, ha⟩).2

theorem reads_iff (h : Reads issues read spells spell P) (hPQ : ∀ a, P a ↔ Q a) :
    Reads issues read spells spell Q :=
  ⟨h.reads.trans (and_congr_right fun _ => hPQ _), fun ha => h.spelled ((hPQ _).mpr ha)⟩

theorem normalizes_checked {spell : α → Json}
    (h : Reads issues read spells (fun a => some (spell a)) P) :
    Normalizes (fun value => if issues value = [] then .ok (read value) else .error (issues value))
      spells spell P where
  accepts value a := by
    refine Iff.trans ?_ h.reads
    change (if _ then _ else _) = _ ↔ _
    split
    case isTrue hissues => simp [hissues]
    case isFalse hissues => simp [hissues]
  complete a ha := by
    change (if _ then _ else _) = _
    rw [if_pos (h.silent ha), h.faithful ha]

end reads

section spellings

def SpellsText (value : Option Json) (s : String) : Prop :=
  ∃ raw, value = some (.string raw) ∧ trim raw = s

def SpellsInteger (value : Option Json) (n : Nat) : Prop := value = some (.number n)

/-- What is left out stands for nothing. -/
def SpellsOptional {α : Type} (spells : Option Json → α → Prop) (value : Option Json) :
    Option α → Prop
  | none => value = none
  | some a => spells value a

/-- Nothing may also be null or blank. -/
def SpellsNonempty (value : Option Json) (o : Option String) : Prop :=
  (value = none ∨ value = some .null) ∧ o = none ∨
    ∃ s, SpellsText value s ∧ truthy (some s) = o

def SpellsReason (value : Option Json) (reason : QueueCancelReason) : Prop :=
  ∃ raw, value = some (.string raw) ∧ toUpperCase (trim raw) = reason.text

end spellings

/-- A text as trimming leaves it. -/
def Trimmed (s : String) : Prop := trim s = s

instance : DecidablePred Trimmed := fun s => inferInstanceAs (Decidable (trim s = s))

theorem trim_toList (s : String) :
    (trim s).toList = ((s.toList.dropWhile isSpace).rdropWhile isSpace) := by
  rw [trim, String.toList_ofList]
  rfl

theorem trim_trimmed (s : String) : Trimmed (trim s) := by
  have hhead : ((trim s).toList).dropWhile isSpace = (trim s).toList := by
    obtain ⟨rest, hrest⟩ := List.rdropWhile_prefix (p := isSpace) (s.toList.dropWhile isSpace)
    rw [trim_toList, List.dropWhile_eq_self_iff]
    intro hl
    have hkept := List.dropWhile_eq_self_iff.mp (List.dropWhile_idempotent (p := isSpace) s.toList)
    rw [← hrest] at hkept
    have hfirst := hkept (by rw [List.length_append]; omega)
    rwa [List.getElem_append_left hl] at hfirst
  apply String.toList_injective
  rw [trim_toList, hhead, trim_toList, List.rdropWhile_idempotent]

section fields

variable {zod : ZodTexts} {checks : List (Check String)} {bounds : List (Check Int)}

theorem failed_nil {α : Type} {checks : List (Check α)} {value : α} :
    failed checks value = [] ↔ ∀ check ∈ checks, check.holds value = true := by
  simp [failed, List.filter_eq_nil_iff]

theorem textIssues_nil {value : Option Json} :
    textIssues zod checks value = [] ↔
      ∃ raw, value = some (.string raw) ∧ ∀ check ∈ checks, check.holds (trim raw) = true := by
  unfold textIssues
  split
  · simp [failed_nil]
  · rename_i hvalue
    constructor
    · exact fun h => absurd h (List.cons_ne_nil _ _)
    · rintro ⟨raw, rfl, -⟩
      exact absurd rfl (hvalue raw)

theorem integerIssues_nil {typeMessage : Option Json → String} {integerMessage : String}
    {unsafeMessage : Rat → String} {value : Option Json} :
    integerIssues typeMessage integerMessage unsafeMessage bounds value = [] ↔
      ∃ n : Int, value = some (.number n) ∧ n.natAbs ≤ MAX_SAFE_INTEGER ∧
        ∀ check ∈ bounds, check.holds n = true := by
  unfold integerIssues
  split
  · rename_i value
    constructor
    · intro h
      have hden : value.den = 1 := by by_contra hden; simp [hden] at h
      simp only [hden, ne_eq, not_true, if_false, List.append_eq_nil_iff, ite_eq_right_iff,
        List.cons_ne_nil, imp_false, not_lt, failed_nil] at h
      exact ⟨value.num, by rw [Rat.coe_int_num_of_den_eq_one hden], h⟩
    · rintro ⟨n, hn, hsafe, hbounds⟩
      obtain rfl : value = n := by simpa using hn
      simpa [failed_nil, not_lt.mpr hsafe] using hbounds
  · rename_i hvalue
    constructor
    · exact fun h => absurd h (List.cons_ne_nil _ _)
    · rintro ⟨n, rfl, -⟩
      exact absurd rfl (hvalue n)

theorem reads_optional {α : Type} {issues : Option Json → List Issue} {read : Option Json → α}
    {optionalRead : Option Json → Option α} {spells : Option Json → α → Prop} {f : α → Json}
    {P : α → Prop} (h : Reads issues read spells (fun a => some (f a)) P)
    (hnone : optionalRead none = none) (hmissing : ∀ a, ¬ spells none a)
    (hsome : ∀ {value}, issues (some value) = [] →
      optionalRead (some value) = some (read (some value))) :
    Reads (optionalIssues issues) optionalRead (SpellsOptional spells) (Option.map f)
      fun o => ∀ a ∈ o, P a where
  reads {value o} := by
    cases value with
    | none =>
      cases o with
      | none => simp [optionalIssues, hnone, SpellsOptional]
      | some a => simp [hnone, SpellsOptional, hmissing a]
    | some value =>
      change issues (some value) = [] ∧ _ ↔ _
      cases o with
      | none =>
        refine iff_of_false (fun ⟨hissues, hread⟩ => ?_) fun hspells => by cases hspells.1
        rw [hsome hissues] at hread
        cases hread
      | some a =>
        simp only [Option.mem_def, Option.some.injEq, forall_eq', SpellsOptional, ← h.reads]
        refine and_congr_right fun hissues => ?_
        rw [hsome hissues, Option.some.injEq]
  spelled {o} ho := by
    cases o with
    | none => rfl
    | some a => exact h.spelled (ho a rfl)

variable (zod checks)

theorem reads_text :
    Reads (textIssues zod checks) text SpellsText (fun s => some (.string s))
      fun s => Trimmed s ∧ ∀ check ∈ checks, check.holds s = true where
  reads {value s} := by
    rw [textIssues_nil]
    constructor
    · rintro ⟨⟨raw, rfl, hchecks⟩, rfl⟩
      exact ⟨⟨raw, rfl, rfl⟩, trim_trimmed raw, hchecks⟩
    · rintro ⟨⟨raw, rfl, rfl⟩, -, hchecks⟩
      exact ⟨⟨raw, rfl, hchecks⟩, rfl⟩
  spelled h := ⟨_, rfl, h.1⟩

theorem reads_optionalText :
    Reads (optionalIssues (textIssues zod checks)) optionalText (SpellsOptional SpellsText)
      (Option.map .string) fun o => ∀ s ∈ o, Trimmed s ∧ ∀ check ∈ checks, check.holds s = true :=
  reads_optional (reads_text zod checks) rfl (by rintro s ⟨raw, ⟨⟩, -⟩) fun h => by
    obtain ⟨raw, hraw, -⟩ := textIssues_nil.mp h
    cases hraw
    rfl

theorem nonemptyText_nothing {value : Option Json} (h : value = none ∨ value = some .null) :
    nonemptyText value = none := by
  obtain rfl | rfl := h <;> rfl

theorem reads_nonemptyText (hblank : ∀ check ∈ checks, check.holds "" = true) :
    Reads (nullableIssues (textIssues zod checks)) nonemptyText SpellsNonempty
      (fun o => some ((o.map .string).getD .null))
      fun o => ∀ s ∈ o, s ≠ "" ∧ Trimmed s ∧ ∀ check ∈ checks, check.holds s = true where
  reads {value o} := by
    by_cases hnothing : value = none ∨ value = some .null
    · have hissues : nullableIssues (textIssues zod checks) value = [] := by
        obtain rfl | rfl := hnothing <;> rfl
      rw [nonemptyText_nothing hnothing, hissues]
      constructor
      · rintro ⟨-, rfl⟩
        exact ⟨.inl ⟨hnothing, rfl⟩, nofun⟩
      · rintro ⟨⟨-, rfl⟩ | ⟨s, ⟨raw, rfl, -⟩, -⟩, -⟩
        · exact ⟨rfl, rfl⟩
        · simp at hnothing
    · have hissues : nullableIssues (textIssues zod checks) value = textIssues zod checks value := by
        cases value with
        | none => exact (hnothing (.inl rfl)).elim
        | some value => cases value <;> first | rfl | exact (hnothing (.inr rfl)).elim
      rw [hissues]
      constructor
      · rintro ⟨htext, rfl⟩
        obtain ⟨hspells, hform⟩ := (reads_text zod checks).reads.mp ⟨htext, rfl⟩
        refine ⟨.inr ⟨_, hspells, rfl⟩, fun s hs => ?_⟩
        obtain ⟨hs, hne⟩ := truthy_some hs
        cases hs
        exact ⟨hne, hform⟩
      · rintro ⟨⟨h, -⟩ | ⟨s, hspells, rfl⟩, hform⟩
        · exact (hnothing h).elim
        have hs : Trimmed s ∧ ∀ check ∈ checks, check.holds s = true := by
          by_cases hne : s = ""
          · subst hne
            exact ⟨rfl, hblank⟩
          · exact (hform s (Option.filter_some_pos (by simpa using hne))).2
        obtain ⟨hnone, hread⟩ := (reads_text zod checks).reads.mpr ⟨hspells, hs⟩
        exact ⟨hnone, by rw [nonemptyText, hread]⟩
  spelled {o} h := by
    cases o with
    | none => exact .inl ⟨.inr rfl, rfl⟩
    | some s =>
      obtain ⟨hne, htrimmed, -⟩ := h s rfl
      exact .inr ⟨s, ⟨s, rfl, htrimmed⟩, Option.filter_some_pos (by simpa using hne)⟩

variable {checks}

theorem reads_integer {typeMessage : Option Json → String} {integerMessage : String}
    {unsafeMessage : Rat → String}
    (hbounds : ∀ n, (∀ check ∈ bounds, check.holds n = true) → 0 ≤ n) :
    Reads (integerIssues typeMessage integerMessage unsafeMessage bounds) integer SpellsInteger
      (fun n => some (.number n))
      fun n => n ≤ MAX_SAFE_INTEGER ∧ ∀ check ∈ bounds, check.holds (n : Int) = true where
  reads {value n} := by
    rw [integerIssues_nil]
    constructor
    · rintro ⟨⟨m, rfl, hsafe, hholds⟩, rfl⟩
      obtain ⟨k, rfl⟩ := Int.eq_ofNat_of_zero_le (hbounds m hholds)
      exact ⟨by simp [SpellsInteger, integer], by simpa [integer] using hsafe, by simpa [integer] using hholds⟩
    · rintro ⟨rfl, hsafe, hholds⟩
      exact ⟨⟨n, by simp, by simpa using hsafe, hholds⟩, by simp [integer]⟩
  spelled _ := rfl

theorem reads_optionalInteger {typeMessage : Option Json → String} {integerMessage : String}
    {unsafeMessage : Rat → String}
    (hbounds : ∀ n, (∀ check ∈ bounds, check.holds n = true) → 0 ≤ n) :
    Reads (optionalIssues (integerIssues typeMessage integerMessage unsafeMessage bounds))
      optionalInteger (SpellsOptional SpellsInteger) (Option.map fun n : Nat => .number n)
      fun o => ∀ n ∈ o, n ≤ MAX_SAFE_INTEGER ∧ ∀ check ∈ bounds, check.holds (n : Int) = true :=
  reads_optional (reads_integer hbounds) rfl (fun _ => nofun) fun h => by
    obtain ⟨n, hn, -⟩ := integerIssues_nil.mp h
    cases hn
    rfl

end fields

section bodies

variable {zod : ZodTexts} {body : Option Json} {fields : List (String × (Option Json → List Issue))}
  {others : List (String × Json) → List Issue}

theorem objectIssues_nil :
    objectIssues zod fields others body = [] ↔ ∃ values, body = some (.object values) ∧
      (∀ field ∈ fields, field.2 (property body field.1) = []) ∧ others values = [] := by
  unfold objectIssues
  split
  · rename_i values
    simp only [List.append_eq_nil_iff, List.flatMap_eq_nil_iff, within_nil, Prod.forall]
    constructor
    · exact fun h => ⟨values, rfl, h⟩
    · rintro ⟨_, ⟨⟩, h⟩
      exact h
  · rename_i hbody
    constructor
    · exact fun h => absurd h (List.cons_ne_nil _ _)
    · rintro ⟨values, rfl, -⟩
      exact absurd rfl (hbody values)

theorem unrecognizedKeys_nil {known : List String} {values : List (String × Json)} :
    unrecognizedKeys zod known values = [] ↔ ∀ value ∈ values, value.1 ∈ known := by
  unfold unrecognizedKeys
  split
  · rename_i h
    simpa [List.filter_eq_nil_iff] using h
  · rename_i h
    constructor
    · exact fun h => absurd h (List.cons_ne_nil _ _)
    · intro hall
      refine absurd (List.filter_eq_nil_iff.mpr fun key hkey => ?_) h
      obtain ⟨value, hvalue, rfl⟩ := List.mem_map.mp hkey
      simpa using hall value hvalue

/-- Who a guest says they are, in the form in which it is stored. -/
structure GuestDetails (guestName guestPhone : String) (partySize : Nat) : Prop where
  trimmed : Trimmed guestName
  named : 1 ≤ utf16Length guestName
  short : utf16Length guestName ≤ GUEST_NAME_MAX
  phone : E164_PHONE guestPhone = true
  present : PARTY_SIZE_MIN ≤ partySize
  few : partySize ≤ PARTY_SIZE_MAX

structure JoinQueueWellFormed (body : JoinQueueBody) : Prop where
  guest : GuestDetails body.guestName body.guestPhone body.partySize
  notes : ∀ s ∈ body.specialNotes, s ≠ "" ∧ Trimmed s ∧ utf16Length s ≤ SPECIAL_NOTES_MAX
  fid : ∀ s ∈ body.fid, s ≠ "" ∧ Trimmed s

structure RegisterWalkInWellFormed (body : RegisterWalkInBody) : Prop where
  guest : GuestDetails body.guestName body.guestPhone body.partySize
  notes : ∀ s ∈ body.specialNotes, Trimmed s ∧ utf16Length s ≤ SPECIAL_NOTES_MAX

structure SkipPartyWellFormed (body : SkipPartyBody) : Prop where
  reason : Trimmed body.reason ∧ 1 ≤ utf16Length body.reason ∧ utf16Length body.reason ≤ 500
  skipPositions : ∀ n ∈ body.skipPositions, n ≤ MAX_SAFE_INTEGER ∧ 0 < n

structure CancelQueueEntryWellFormed (body : CancelQueueEntryBody) : Prop where
  notes : ∀ s ∈ body.notes, Trimmed s ∧ utf16Length s ≤ 500

structure JoinQueueSpelled (value : Option Json) (body : JoinQueueBody) : Prop where
  object : ∃ fields, value = some (.object fields)
  guestName : SpellsText (property value "guestName") body.guestName
  guestPhone : SpellsText (property value "guestPhone") body.guestPhone
  partySize : SpellsInteger (property value "partySize") body.partySize
  specialNotes : SpellsNonempty (property value "specialNotes") body.specialNotes
  fid : SpellsNonempty (property value "fid") body.fid

structure RegisterWalkInSpelled (value : Option Json) (body : RegisterWalkInBody) : Prop where
  object : ∃ fields, value = some (.object fields)
  guestName : SpellsText (property value "guestName") body.guestName
  guestPhone : SpellsText (property value "guestPhone") body.guestPhone
  partySize : SpellsInteger (property value "partySize") body.partySize
  specialNotes : SpellsOptional SpellsText (property value "specialNotes") body.specialNotes

/-- The last two schemas are strict. -/
structure SkipPartySpelled (value : Option Json) (body : SkipPartyBody) : Prop where
  object : ∃ fields, value = some (.object fields) ∧
    ∀ field ∈ fields, field.1 ∈ ["reason", "skipPositions"]
  reason : SpellsText (property value "reason") body.reason
  skipPositions : SpellsOptional SpellsInteger (property value "skipPositions") body.skipPositions

structure CancelQueueEntrySpelled (value : Option Json) (body : CancelQueueEntryBody) : Prop where
  object : ∃ fields, value = some (.object fields) ∧ ∀ field ∈ fields, field.1 ∈ ["reason", "notes"]
  reason : SpellsReason (property value "reason") body.reason
  notes : SpellsOptional SpellsText (property value "notes") body.notes

def JoinQueueBody.toJson (body : JoinQueueBody) : Json :=
  .object [("guestName", .string body.guestName), ("guestPhone", .string body.guestPhone),
    ("partySize", .number body.partySize),
    ("specialNotes", (body.specialNotes.map .string).getD .null),
    ("fid", (body.fid.map .string).getD .null)]

/-- A field that may be left out. -/
def optionalField (name : String) (value : Option Json) : List (String × Json) :=
  value.toList.map fun value => (name, value)

def RegisterWalkInBody.toJson (body : RegisterWalkInBody) : Json :=
  .object ([("guestName", .string body.guestName), ("guestPhone", .string body.guestPhone),
    ("partySize", .number body.partySize)] ++
      optionalField "specialNotes" (body.specialNotes.map .string))

def SkipPartyBody.toJson (body : SkipPartyBody) : Json :=
  .object ([("reason", .string body.reason)] ++
    optionalField "skipPositions" (body.skipPositions.map fun n : Nat => .number n))

def CancelQueueEntryBody.toJson (body : CancelQueueEntryBody) : Json :=
  .object ([("reason", .string body.reason.text)] ++
    optionalField "notes" (body.notes.map .string))

/-- A phone number in the format has no spaces to trim. -/
theorem phone_trimmed {s : String} (h : E164_PHONE s = true) : Trimmed s := by
  refine StaffIsolation.trim_of_spaceless fun c hc => ?_
  have hdigit : ∀ d : Char, d.isDigit = true → isSpace d = false := fun d hd =>
    StaffIsolation.isSpace_false (.inl (by simp [isHexDigit, hd]))
  unfold E164_PHONE at h
  split at h
  · rename_i first rest hs
    simp only [Bool.and_eq_true, decide_eq_true_eq, List.all_eq_true] at h
    rw [hs, List.mem_cons, List.mem_cons] at hc
    obtain rfl | rfl | hc := hc
    · rfl
    · refine hdigit c ?_
      simp only [Char.isDigit, Bool.and_eq_true, decide_eq_true_eq, Char.le_def,
        UInt32.le_iff_toNat_le] at h ⊢
      exact ⟨le_trans (by decide) h.1.1.1.1, h.1.1.1.2⟩
    · exact hdigit c (h.2 c hc)
  · cases h

theorem reads_guestName (zod : ZodTexts) :
    Reads (textIssues zod guestNameChecks) text SpellsText (fun s => some (.string s))
      fun s => Trimmed s ∧ 1 ≤ utf16Length s ∧ utf16Length s ≤ GUEST_NAME_MAX :=
  reads_iff (reads_text zod _) fun s => by simp [guestNameChecks]

theorem reads_guestPhone (zod : ZodTexts) :
    Reads (textIssues zod guestPhoneChecks) text SpellsText (fun s => some (.string s))
      fun s => E164_PHONE s = true :=
  reads_iff (reads_text zod _) fun s => by simpa [guestPhoneChecks] using phone_trimmed

theorem reads_partySize :
    Reads partySizeIssues integer SpellsInteger (fun n : Nat => some (.number n))
      fun n => PARTY_SIZE_MIN ≤ n ∧ n ≤ PARTY_SIZE_MAX := by
  refine reads_iff (reads_integer fun n hn => ?_) fun n => ?_
  · have hmin : PARTY_SIZE_MIN ≤ n := by simpa using hn _ List.mem_cons_self
    omega
  · have hsafe : PARTY_SIZE_MAX ≤ MAX_SAFE_INTEGER := by decide
    simp only [partySizeChecks, List.mem_cons, List.not_mem_nil, or_false, forall_eq_or_imp, forall_eq,
      decide_eq_true_eq, Nat.cast_le]
    omega

theorem reads_specialNotes (zod : ZodTexts) :
    Reads (nullableIssues (textIssues zod specialNotesChecks)) nonemptyText SpellsNonempty
      (fun o => some ((o.map .string).getD .null))
      fun o => ∀ s ∈ o, s ≠ "" ∧ Trimmed s ∧ utf16Length s ≤ SPECIAL_NOTES_MAX :=
  reads_iff (reads_nonemptyText zod _ (by decide)) fun o => by simp [specialNotesChecks]

theorem reads_fid (zod : ZodTexts) :
    Reads (nullableIssues (textIssues zod [])) nonemptyText SpellsNonempty
      (fun o => some ((o.map .string).getD .null)) fun o => ∀ s ∈ o, s ≠ "" ∧ Trimmed s :=
  reads_iff (reads_nonemptyText zod _ (List.forall_mem_nil _)) fun o => by simp

theorem reads_walkInNotes (zod : ZodTexts) :
    Reads (optionalIssues (textIssues zod specialNotesChecks)) optionalText (SpellsOptional SpellsText)
      (Option.map .string) fun o => ∀ s ∈ o, Trimmed s ∧ utf16Length s ≤ SPECIAL_NOTES_MAX :=
  reads_iff (reads_optionalText zod _) fun o => by simp [specialNotesChecks]

theorem reads_skipReason (zod : ZodTexts) :
    Reads (textIssues zod skipReasonChecks) text SpellsText (fun s => some (.string s))
      fun s => Trimmed s ∧ 1 ≤ utf16Length s ∧ utf16Length s ≤ 500 :=
  reads_iff (reads_text zod _) fun s => by simp [skipReasonChecks]

theorem reads_skipPositions (zod : ZodTexts) :
    Reads (optionalIssues (integerIssues (zod.invalidType "number") zod.expectedInteger
      zod.unsafeInteger [⟨fun value => 0 < value, zod.notPositive⟩])) optionalInteger
      (SpellsOptional SpellsInteger) (Option.map fun n : Nat => .number n)
      fun o => ∀ n ∈ o, n ≤ MAX_SAFE_INTEGER ∧ 0 < n := by
  refine reads_iff (reads_optionalInteger fun n hn => ?_) fun o => by simp
  have hpos : 0 < n := by simpa using hn _ List.mem_cons_self
  omega

theorem reads_cancelNotes (zod : ZodTexts) :
    Reads (optionalIssues (textIssues zod [⟨fun value => utf16Length value ≤ 500, zod.tooLong 500⟩]))
      optionalText (SpellsOptional SpellsText) (Option.map .string)
      fun o => ∀ s ∈ o, Trimmed s ∧ utf16Length s ≤ 500 :=
  reads_iff (reads_optionalText zod _) fun o => by simp

theorem cancelReason_iff {value : Option Json} {reason : QueueCancelReason} :
    cancelReason value = some reason ↔ SpellsReason value reason := by
  constructor
  · intro h
    unfold cancelReason at h
    split at h
    · rename_i raw
      have hraw := List.find?_some h
      rw [decide_eq_true_iff] at hraw
      exact ⟨raw, rfl, hraw.symm⟩
    · cases h
  · rintro ⟨raw, rfl, hraw⟩
    rw [cancelReason, hraw]
    cases reason <;> rfl

theorem reads_reason :
    Reads cancelReasonIssues (fun value => (cancelReason value).getD .other) SpellsReason
      (fun reason => some (.string reason.text)) fun _ => True where
  reads {value reason} := by
    rw [← cancelReason_iff, cancelReasonIssues]
    cases cancelReason value <;> simp
  spelled {reason} _ := cancelReason_iff.mp (by cases reason <;> rfl)

/-- Behind fields of other names a field is what it is given, or missing. -/
theorem property_optionalField {name : String} {value : Option Json} {known : List (String × Json)}
    (h : ∀ field ∈ known, field.1 ≠ name) :
    property (some (.object (known ++ optionalField name value))) name = value := by
  have hknown : known.find? (·.1 = name) = none :=
    List.find?_eq_none.mpr fun field hfield => by simpa using h field hfield
  change ((known ++ optionalField name value).find? (·.1 = name)).map (·.2) = value
  rw [List.find?_append, hknown, Option.none_or]
  cases value with
  | none => rfl
  | some value => simp [optionalField]

theorem registerWalkIn_notes (body : RegisterWalkInBody) :
    property (some (RegisterWalkInBody.toJson body)) "specialNotes" = body.specialNotes.map .string :=
  property_optionalField (by simp)

theorem skipParty_positions (body : SkipPartyBody) :
    property (some (SkipPartyBody.toJson body)) "skipPositions" =
      body.skipPositions.map fun n : Nat => .number n :=
  property_optionalField (by simp)

theorem cancelQueueEntry_notes (body : CancelQueueEntryBody) :
    property (some (CancelQueueEntryBody.toJson body)) "notes" = body.notes.map .string :=
  property_optionalField (by simp)

theorem reads_joinQueue :
    Reads (joinQueueIssues zod)
      (fun body => JoinQueueBody.mk (text (property body "guestName"))
        (text (property body "guestPhone")) (integer (property body "partySize"))
        (nonemptyText (property body "specialNotes")) (nonemptyText (property body "fid")))
      JoinQueueSpelled (fun body => some (JoinQueueBody.toJson body)) JoinQueueWellFormed where
  reads {value body} := by
    rw [joinQueueIssues, objectIssues_nil]
    simp only [List.forall_mem_cons]
    constructor
    · rintro ⟨⟨values, rfl, ⟨hname, hphone, hparty, hnotes, hfid, -⟩, -⟩, rfl⟩
      have hname := (reads_guestName zod).reads.mp ⟨hname, rfl⟩
      have hphone := (reads_guestPhone zod).reads.mp ⟨hphone, rfl⟩
      have hparty := reads_partySize.reads.mp ⟨hparty, rfl⟩
      have hnotes := (reads_specialNotes zod).reads.mp ⟨hnotes, rfl⟩
      have hfid := (reads_fid zod).reads.mp ⟨hfid, rfl⟩
      exact ⟨⟨⟨values, rfl⟩, hname.1, hphone.1, hparty.1, hnotes.1, hfid.1⟩,
        ⟨hname.2.1, hname.2.2.1, hname.2.2.2, hphone.2, hparty.2.1, hparty.2.2⟩, hnotes.2, hfid.2⟩
    · rintro ⟨⟨⟨values, rfl⟩, hname, hphone, hparty, hnotes, hfid⟩, hguest, hnotes', hfid'⟩
      have hname := (reads_guestName zod).reads.mpr ⟨hname, hguest.trimmed, hguest.named, hguest.short⟩
      have hphone := (reads_guestPhone zod).reads.mpr ⟨hphone, hguest.phone⟩
      have hparty := reads_partySize.reads.mpr ⟨hparty, hguest.present, hguest.few⟩
      have hnotes := (reads_specialNotes zod).reads.mpr ⟨hnotes, hnotes'⟩
      have hfid := (reads_fid zod).reads.mpr ⟨hfid, hfid'⟩
      refine ⟨⟨values, rfl, ⟨hname.1, hphone.1, hparty.1, hnotes.1, hfid.1, List.forall_mem_nil _⟩,
        trivial⟩, ?_⟩
      rw [hname.2, hphone.2, hparty.2, hnotes.2, hfid.2]
  spelled h := ⟨⟨_, rfl⟩, ⟨_, rfl, h.guest.trimmed⟩, (reads_guestPhone zod).spelled h.guest.phone, rfl,
    (reads_specialNotes zod).spelled h.notes, (reads_fid zod).spelled h.fid⟩

theorem reads_registerWalkIn :
    Reads (registerWalkInIssues zod)
      (fun body => RegisterWalkInBody.mk (text (property body "guestName"))
        (text (property body "guestPhone")) (integer (property body "partySize"))
        (optionalText (property body "specialNotes")))
      RegisterWalkInSpelled (fun body => some (RegisterWalkInBody.toJson body))
      RegisterWalkInWellFormed where
  reads {value body} := by
    rw [registerWalkInIssues, objectIssues_nil]
    simp only [List.forall_mem_cons]
    constructor
    · rintro ⟨⟨values, rfl, ⟨hname, hphone, hparty, hnotes, -⟩, -⟩, rfl⟩
      have hname := (reads_guestName zod).reads.mp ⟨hname, rfl⟩
      have hphone := (reads_guestPhone zod).reads.mp ⟨hphone, rfl⟩
      have hparty := reads_partySize.reads.mp ⟨hparty, rfl⟩
      have hnotes := (reads_walkInNotes zod).reads.mp ⟨hnotes, rfl⟩
      exact ⟨⟨⟨values, rfl⟩, hname.1, hphone.1, hparty.1, hnotes.1⟩,
        ⟨hname.2.1, hname.2.2.1, hname.2.2.2, hphone.2, hparty.2.1, hparty.2.2⟩, hnotes.2⟩
    · rintro ⟨⟨⟨values, rfl⟩, hname, hphone, hparty, hnotes⟩, hguest, hnotes'⟩
      have hname := (reads_guestName zod).reads.mpr ⟨hname, hguest.trimmed, hguest.named, hguest.short⟩
      have hphone := (reads_guestPhone zod).reads.mpr ⟨hphone, hguest.phone⟩
      have hparty := reads_partySize.reads.mpr ⟨hparty, hguest.present, hguest.few⟩
      have hnotes := (reads_walkInNotes zod).reads.mpr ⟨hnotes, hnotes'⟩
      refine ⟨⟨values, rfl, ⟨hname.1, hphone.1, hparty.1, hnotes.1, List.forall_mem_nil _⟩,
        trivial⟩, ?_⟩
      rw [hname.2, hphone.2, hparty.2, hnotes.2]
  spelled {body} h := by
    refine ⟨⟨_, rfl⟩, ⟨_, rfl, h.guest.trimmed⟩, (reads_guestPhone zod).spelled h.guest.phone, rfl, ?_⟩
    rw [registerWalkIn_notes]
    exact (reads_walkInNotes zod).spelled h.notes

theorem reads_skipParty :
    Reads (skipPartyIssues zod)
      (fun body => SkipPartyBody.mk (text (property body "reason"))
        (optionalInteger (property body "skipPositions")))
      SkipPartySpelled (fun body => some (SkipPartyBody.toJson body)) SkipPartyWellFormed where
  reads {value body} := by
    rw [skipPartyIssues, objectIssues_nil]
    simp only [List.forall_mem_cons, unrecognizedKeys_nil]
    constructor
    · rintro ⟨⟨values, rfl, ⟨hreason, hpositions, -⟩, hknown⟩, rfl⟩
      have hreason := (reads_skipReason zod).reads.mp ⟨hreason, rfl⟩
      have hpositions := (reads_skipPositions zod).reads.mp ⟨hpositions, rfl⟩
      exact ⟨⟨⟨values, rfl, hknown⟩, hreason.1, hpositions.1⟩, hreason.2, hpositions.2⟩
    · rintro ⟨⟨⟨values, rfl, hknown⟩, hreason, hpositions⟩, hreason', hpositions'⟩
      have hreason := (reads_skipReason zod).reads.mpr ⟨hreason, hreason'⟩
      have hpositions := (reads_skipPositions zod).reads.mpr ⟨hpositions, hpositions'⟩
      refine ⟨⟨values, rfl, ⟨hreason.1, hpositions.1, List.forall_mem_nil _⟩, hknown⟩, ?_⟩
      rw [hreason.2, hpositions.2]
  spelled {body} h := by
    refine ⟨⟨_, rfl, by simp [optionalField]⟩, ⟨_, rfl, h.reason.1⟩, ?_⟩
    rw [skipParty_positions]
    exact (reads_skipPositions zod).spelled h.skipPositions

theorem reads_cancelQueueEntry :
    Reads (cancelQueueEntryIssues zod)
      (fun body => CancelQueueEntryBody.mk ((cancelReason (property body "reason")).getD .other)
        (optionalText (property body "notes")))
      CancelQueueEntrySpelled (fun body => some (CancelQueueEntryBody.toJson body))
      CancelQueueEntryWellFormed where
  reads {value body} := by
    rw [cancelQueueEntryIssues, objectIssues_nil]
    simp only [List.forall_mem_cons, unrecognizedKeys_nil]
    constructor
    · rintro ⟨⟨values, rfl, ⟨hreason, hnotes, -⟩, hknown⟩, rfl⟩
      have hreason := reads_reason.reads.mp ⟨hreason, rfl⟩
      have hnotes := (reads_cancelNotes zod).reads.mp ⟨hnotes, rfl⟩
      exact ⟨⟨⟨values, rfl, hknown⟩, hreason.1, hnotes.1⟩, ⟨hnotes.2⟩⟩
    · rintro ⟨⟨⟨values, rfl, hknown⟩, hreason, hnotes⟩, ⟨hnotes'⟩⟩
      have hreason := reads_reason.reads.mpr ⟨hreason, trivial⟩
      have hnotes := (reads_cancelNotes zod).reads.mpr ⟨hnotes, hnotes'⟩
      refine ⟨⟨values, rfl, ⟨hreason.1, hnotes.1, List.forall_mem_nil _⟩, hknown⟩, ?_⟩
      rw [hreason.2, hnotes.2]
  spelled {body} h := by
    refine ⟨⟨_, rfl, by simp [optionalField]⟩, reads_reason.spelled trivial, ?_⟩
    rw [cancelQueueEntry_notes]
    exact (reads_cancelNotes zod).spelled h.notes

/-- Each of the four schemas lets through exactly the bodies that spell well-formed data,
as the data they spell, and what it has let through it would let through unchanged. -/
theorem bodies_normalized (zod : ZodTexts) :
    Normalizes (joinQueueBodySchema zod) JoinQueueSpelled JoinQueueBody.toJson JoinQueueWellFormed ∧
      Normalizes (registerWalkInBodySchema zod) RegisterWalkInSpelled RegisterWalkInBody.toJson
        RegisterWalkInWellFormed ∧
      Normalizes (skipPartyBodySchema zod) SkipPartySpelled SkipPartyBody.toJson SkipPartyWellFormed ∧
      Normalizes (cancelQueueEntryBodySchema zod) CancelQueueEntrySpelled CancelQueueEntryBody.toJson
        CancelQueueEntryWellFormed :=
  ⟨normalizes_checked reads_joinQueue, normalizes_checked reads_registerWalkIn,
    normalizes_checked reads_skipParty, normalizes_checked reads_cancelQueueEntry⟩

end bodies

end SpotQueue.CanonicalBodies
