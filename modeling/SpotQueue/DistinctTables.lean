import Mathlib.Tactic.Linarith
import SpotQueue.TableBodies

namespace SpotQueue.DistinctTables

open SpotQueue.Entity SpotQueue.StaffApi SpotQueue.TableBodies
open SpotQueue.NumberText (MAX_SAFE_INTEGER)

variable (zod : Zod)

@[simp] theorem within_nil (item : PathItem) (issues : List Issue) :
    within item issues = [] ↔ issues = [] := by
  simp [within]

theorem uuidIssues_nil {typeMessage : Option Json → String} {formatMessage : String}
    {value : Option Json} :
    uuidIssues zod typeMessage formatMessage value = [] ↔
      ∃ text, value = some (.string text) ∧ zod.isUuid text = true := by
  unfold uuidIssues
  split <;> simp_all

theorem countIssues_nil {value : Option Json} :
    countIssues value = [] ↔ ∃ count : Nat, value = some (.number count) ∧ 0 < count ∧
      count ≤ MAX_SAFE_INTEGER := by
  unfold countIssues
  split
  case h_1 value =>
    constructor
    · intro h
      have hden : value.den = 1 := by by_contra hden; simp [hden] at h
      simp only [hden, ne_eq, not_true, if_false, List.append_eq_nil_iff, ite_eq_right_iff,
        List.cons_ne_nil, imp_false, not_lt, not_le] at h
      have hvalue : value = (value.num.toNat : Nat) := by
        have hnum : ((value.num.toNat : Nat) : Int) = value.num := Int.toNat_of_nonneg (by omega)
        apply Rat.ext
        · rw [Rat.num_natCast, hnum]
        · rw [hden, Rat.den_natCast]
      exact ⟨value.num.toNat, by rw [← hvalue], by omega, by omega⟩
    · rintro ⟨count, hcount, hpos, hmax⟩
      obtain rfl : value = count := by simpa using hcount
      simp [not_lt.mpr hmax]
      omega
  case h_2 => simp_all

theorem arrayIssues_nil {item : Json → List Issue} {minMessage : String} {value : Option Json} :
    arrayIssues zod item minMessage value = [] ↔
      ∃ items, value = some (.array items) ∧ items ≠ [] ∧ ∀ v ∈ items, item v = [] := by
  unfold arrayIssues
  split
  case h_1 items =>
    simp only [List.append_eq_nil_iff, List.flatMap_eq_nil_iff, within_nil, Prod.forall]
    constructor
    · rintro ⟨hitems, hlength⟩
      refine ⟨items, rfl, by rintro rfl; simp at hlength, fun v hv => ?_⟩
      obtain ⟨i, hi, rfl⟩ := List.getElem_of_mem hv
      exact hitems items[i] i (List.mk_mem_zipIdx_iff_getElem?.mpr (by simp [hi]))
    · rintro ⟨_, hvalue, hne, hitems⟩
      obtain rfl : items = _ := by simpa using hvalue
      refine ⟨fun v i hv => hitems v (List.mem_of_getElem? (List.mk_mem_zipIdx_iff_getElem?.mp hv)), ?_⟩
      have hlength := List.length_pos_of_ne_nil hne
      simp
      omega
  case h_2 => simp_all

theorem duplicateIssues_nil {path : Nat → List PathItem} {message : String} {seen : List String}
    {index : Nat} {ids : List String} :
    duplicateIssues path message seen index ids = [] ↔ ids.Nodup ∧ ∀ id ∈ ids, id ∉ seen := by
  induction ids generalizing seen index with
  | nil => simp [duplicateIssues]
  | cons id rest ih =>
    simp only [duplicateIssues, List.append_eq_nil_iff, ih, ite_eq_right_iff, List.cons_ne_nil,
      imp_false, List.nodup_cons, List.mem_cons, forall_eq_or_imp]
    constructor
    · rintro ⟨hid, hrest, hseen⟩
      exact ⟨⟨fun h => hseen id h (.inl rfl), hrest⟩, hid, fun a ha h => hseen a ha (.inr h)⟩
    · rintro ⟨⟨hfresh, hrest⟩, hid, hseen⟩
      refine ⟨hid, hrest, fun a ha h => ?_⟩
      rcases h with rfl | h
      · exact hfresh ha
      · exact hseen a ha h

theorem superRefine_nil {issues refinement : List Issue} :
    superRefine issues refinement = [] ↔ issues = [] ∧ refinement = [] := by
  rw [superRefine]
  cases issues <;> simp

/-- A body that names `ids`, all of them well formed. -/
structure SeatPartyForm (body : Json) (ids : List String) : Prop where
  strict : ∃ fields, body = .object fields ∧ ∀ field ∈ fields, field.1 = "tableIds"
  list : body.property "tableIds" = some (.array (ids.map .string))
  uuids : ∀ id ∈ ids, zod.isUuid id = true

structure IsTableItem (value : Json) (table : TableItem) : Prop where
  tableId : value.property "tableId" = some (.string table.tableId)
  uuid : zod.isUuid table.tableId = true
  count : value.property "count" = some (.number table.count)
  positive : 0 < table.count
  safe : table.count ≤ MAX_SAFE_INTEGER

/-- A body that lists `tables`, all of them well formed. -/
structure AssignTablesForm (body : Json) (tables : List TableItem) : Prop where
  list : ∃ items, body.property "tables" = some (.array items) ∧
    List.Forall₂ (IsTableItem zod) items tables

theorem strings_of_uuids {values : List Json}
    (h : ∀ v ∈ values, ∃ text, some v = some (.string text) ∧ zod.isUuid text = true) :
    values = (values.filterMap asText).map .string ∧
      ∀ id ∈ values.filterMap asText, zod.isUuid id = true := by
  induction values with
  | nil => simp
  | cons v rest ih =>
    obtain ⟨text, hv, huuid⟩ := h v (by simp)
    obtain rfl : v = .string text := by simpa using hv
    obtain ⟨hrest, huuids⟩ := ih fun w hw => h w (by simp [hw])
    rw [List.filterMap_cons_some (show asText (.string text) = some text from rfl)]
    refine ⟨by rw [List.map_cons, ← hrest], ?_⟩
    simpa [huuid] using huuids

theorem filterMap_asText (ids : List String) : (ids.map Json.string).filterMap asText = ids := by
  induction ids with
  | nil => rfl
  | cons id rest ih => simp [asText, ih]

variable {zod} {body : Json}

theorem SeatPartyForm.ids {ids : List String} (h : SeatPartyForm zod body ids) :
    seatPartyTableIds body = ids := by
  rw [seatPartyTableIds, h.list]
  exact filterMap_asText ids

theorem seatPartyShape_nil :
    seatPartyShape zod body = [] ↔
      SeatPartyForm zod body (seatPartyTableIds body) ∧ seatPartyTableIds body ≠ [] := by
  constructor
  · intro h
    cases body with
    | object fields =>
      simp only [seatPartyShape, List.append_eq_nil_iff, within_nil, arrayIssues_nil, uuidIssues_nil] at h
      obtain ⟨⟨values, hvalues, hne, huuids⟩, hkeys⟩ := h
      obtain ⟨hlist, huuids⟩ := strings_of_uuids zod huuids
      have hids : seatPartyTableIds (.object fields) = values.filterMap asText := by
        rw [seatPartyTableIds, hvalues]
        rfl
      rw [hids]
      refine ⟨⟨⟨fields, rfl, fun field hfield => ?_⟩, by rw [← hlist]; exact hvalues, huuids⟩, ?_⟩
      · split at hkeys
        case h_1 hnone =>
          have hall := List.filter_eq_nil_iff.mp hnone field.1 (List.mem_map_of_mem hfield)
          simpa using hall
        case h_2 => exact absurd hkeys (by simp)
      · intro hnil
        rw [hnil] at hlist
        exact hne hlist
    | _ => exact absurd h (by simp [seatPartyShape])
  · rintro ⟨hform, hne⟩
    obtain ⟨fields, rfl, hstrict⟩ := hform.strict
    have hkeys : (fields.map (·.1)).filter (· ≠ "tableIds") = [] := by
      rw [List.filter_eq_nil_iff]
      intro key hkey
      obtain ⟨field, hfield, rfl⟩ := List.mem_map.mp hkey
      simp [hstrict field hfield]
    simp only [seatPartyShape, hkeys, List.append_nil, within_nil, arrayIssues_nil]
    refine ⟨_, hform.list, by simpa using hne, fun v hv => ?_⟩
    obtain ⟨id, hid, rfl⟩ := List.mem_map.mp hv
    exact (uuidIssues_nil zod).mpr ⟨id, rfl, hform.uuids id hid⟩

/-- A schema lets a body through as what it reads off it, once no issue is left. -/
theorem checked_ok {α : Type} {issues : List Issue} {read a : α} {P : α → Prop}
    (hissues : issues = [] ↔ P read) (hread : P a → read = a) :
    (if issues = [] then .ok read else .error issues : Except (List Issue) α) = .ok a ↔ P a := by
  constructor
  · intro h
    split at h
    case isTrue hnil => exact Except.ok.inj h ▸ hissues.mp hnil
    case isFalse => cases h
  · intro h
    obtain rfl := hread h
    exact if_pos (hissues.mpr h)

theorem seatPartyBodySchema_ok {ids : List String} :
    seatPartyBodySchema zod body = .ok ⟨ids⟩ ↔ SeatPartyForm zod body ids ∧ ids ≠ [] ∧ ids.Nodup := by
  have hissues : seatPartyIssues zod body = [] ↔
      SeatPartyForm zod body (seatPartyTableIds body) ∧ seatPartyTableIds body ≠ [] ∧
        (seatPartyTableIds body).Nodup := by
    rw [seatPartyIssues, superRefine_nil, seatPartyShape_nil, duplicateIssues_nil, and_assoc]
    simp
  exact checked_ok (a := SeatPartyBody.mk ids)
    (P := fun parsed => SeatPartyForm zod body parsed.tableIds ∧ parsed.tableIds ≠ [] ∧
      parsed.tableIds.Nodup) hissues fun h => congrArg SeatPartyBody.mk h.1.ids

theorem tableItemIssues_nil {value : Json} :
    tableItemIssues zod value = [] ↔ ∃ table, IsTableItem zod value table := by
  cases value with
  | object fields =>
    simp only [tableItemIssues, List.append_eq_nil_iff, within_nil, uuidIssues_nil, countIssues_nil]
    constructor
    · rintro ⟨⟨tableId, htableId, huuid⟩, count, hcount, hpos, hsafe⟩
      exact ⟨⟨tableId, count⟩, htableId, huuid, hcount, hpos, hsafe⟩
    · rintro ⟨table, h⟩
      exact ⟨⟨_, h.tableId, h.uuid⟩, _, h.count, h.positive, h.safe⟩
  | _ =>
    constructor
    · intro h
      exact absurd h (by simp [tableItemIssues])
    · rintro ⟨table, h⟩
      exact absurd h.tableId (by simp [Json.property])

theorem IsTableItem.ofJson {value : Json} {table : TableItem} (h : IsTableItem zod value table) :
    TableItem.ofJson value = some table := by
  simp [TableItem.ofJson, h.tableId, h.count]

theorem tables_of_items {values : List Json} (h : ∀ v ∈ values, tableItemIssues zod v = []) :
    List.Forall₂ (IsTableItem zod) values (values.filterMap TableItem.ofJson) := by
  induction values with
  | nil => exact .nil
  | cons v rest ih =>
    obtain ⟨table, htable⟩ := tableItemIssues_nil.mp (h v (by simp))
    rw [List.filterMap_cons_some htable.ofJson]
    exact .cons htable (ih fun w hw => h w (by simp [hw]))

theorem items_of_tables {values : List Json} {tables : List TableItem}
    (h : List.Forall₂ (IsTableItem zod) values tables) :
    values.filterMap TableItem.ofJson = tables ∧ ∀ v ∈ values, tableItemIssues zod v = [] := by
  induction h with
  | nil => simp
  | cons hv _ ih =>
    rw [List.filterMap_cons_some hv.ofJson, ih.1]
    exact ⟨rfl, List.forall_mem_cons.mpr ⟨tableItemIssues_nil.mpr ⟨_, hv⟩, ih.2⟩⟩

theorem AssignTablesForm.tables {tables : List TableItem} (h : AssignTablesForm zod body tables) :
    assignTablesTables body = tables := by
  obtain ⟨values, hvalues, htables⟩ := h.list
  rw [assignTablesTables, hvalues]
  exact (items_of_tables htables).1

theorem assignTablesShape_nil :
    assignTablesShape zod body = [] ↔
      AssignTablesForm zod body (assignTablesTables body) ∧ assignTablesTables body ≠ [] := by
  cases body with
  | object fields =>
    simp only [assignTablesShape, within_nil, arrayIssues_nil]
    constructor
    · rintro ⟨values, hvalues, hne, hitems⟩
      have htables : assignTablesTables (.object fields) = values.filterMap TableItem.ofJson := by
        rw [assignTablesTables, hvalues]
        rfl
      have hforall := tables_of_items hitems
      rw [htables]
      refine ⟨⟨values, hvalues, hforall⟩, fun hnil => hne ?_⟩
      rw [hnil] at hforall
      exact List.forall₂_nil_right_iff.mp hforall
    · rintro ⟨⟨values, hvalues, hforall⟩, hne⟩
      refine ⟨values, hvalues, ?_, (items_of_tables hforall).2⟩
      rintro rfl
      exact hne (List.forall₂_nil_left_iff.mp hforall)
  | _ =>
    constructor
    · intro h
      exact absurd h (by simp [assignTablesShape])
    · rintro ⟨⟨values, hvalues, _⟩, _⟩
      exact absurd hvalues (by simp [Json.property])

theorem assignTablesBodySchema_ok {tables : List TableItem} :
    assignTablesBodySchema zod body = .ok tables ↔
      AssignTablesForm zod body tables ∧ tables ≠ [] ∧ (tables.map (·.tableId)).Nodup := by
  have hissues : assignTablesIssues zod body = [] ↔
      AssignTablesForm zod body (assignTablesTables body) ∧ assignTablesTables body ≠ [] ∧
        ((assignTablesTables body).map (·.tableId)).Nodup := by
    rw [assignTablesIssues, superRefine_nil, assignTablesShape_nil, duplicateIssues_nil, and_assoc]
    simp
  exact checked_ok (P := fun tables => AssignTablesForm zod body tables ∧ tables ≠ [] ∧
    (tables.map (·.tableId)).Nodup) hissues fun h => h.1.tables

theorem counts_positive {tables : List TableItem} (h : assignTablesBodySchema zod body = .ok tables) :
    ∀ table ∈ tables, 0 < table.count := by
  obtain ⟨items, -, hitems⟩ := (assignTablesBodySchema_ok.mp h).1.list
  clear h
  induction hitems with
  | nil => exact List.forall_mem_nil _
  | cons hitem _ ih => exact List.forall_mem_cons.mpr ⟨hitem.positive, ih⟩

/-- A schema that lets through the nonempty well-formed lists naming every uuid
once, and no others. -/
def NamesOnce {α : Type} (ids : α → List String) (wellFormed accepted : α → Prop) : Prop :=
  (∀ x, accepted x → ids x ≠ [] ∧ ((ids x).map Uuid.ofText).Nodup) ∧
    ∀ x, wellFormed x → ids x ≠ [] → ((ids x).map Uuid.ofText).Nodup → accepted x

theorem namesOnce_iff {α : Type} {ids : α → List String} {wellFormed accepted : α → Prop}
    (h : ∀ x, accepted x ↔ wellFormed x ∧ ids x ≠ [] ∧ (ids x).Nodup) :
    NamesOnce ids wellFormed accepted ↔ ∀ x, wellFormed x → (ids x).Nodup →
      ∀ a ∈ ids x, ∀ b ∈ ids x, toLowerCase a = toLowerCase b → a = b := by
  constructor
  · rintro ⟨hdistinct, -⟩ x hform hnodup a ha b hb hlower
    have hvalues := (hdistinct x ((h x).mpr ⟨hform, List.ne_nil_of_mem ha, hnodup⟩)).2
    apply (List.nodup_map_iff_inj_on hnodup).mp hvalues a ha b hb
    simpa [Uuid.ofText] using hlower
  · intro hspelled
    refine ⟨fun x hx => ?_, fun x hform hne hvalues => (h x).mpr ⟨hform, hne, hvalues.of_map _⟩⟩
    obtain ⟨hform, hne, hnodup⟩ := (h x).mp hx
    refine ⟨hne, (List.nodup_map_iff_inj_on hnodup).mpr fun a ha b hb heq => ?_⟩
    exact hspelled x hform hnodup a ha b hb (by simpa [Uuid.ofText] using heq)

/-- Both schemas compare the ids as the request spells them. They name every table
once exactly when no two different spellings differ in the case of a letter only. -/
theorem tables_named_once_iff (zod : Zod) (body : Json) :
    (NamesOnce id (SeatPartyForm zod body) (fun ids => seatPartyBodySchema zod body = .ok ⟨ids⟩) ↔
      ∀ ids, SeatPartyForm zod body ids → ids.Nodup →
        ∀ a ∈ ids, ∀ b ∈ ids, toLowerCase a = toLowerCase b → a = b) ∧
      (NamesOnce (fun tables => tables.map (·.tableId)) (AssignTablesForm zod body)
          (fun tables => assignTablesBodySchema zod body = .ok tables) ↔
        ∀ tables, AssignTablesForm zod body tables → (tables.map (·.tableId)).Nodup →
          ∀ a ∈ tables.map (·.tableId), ∀ b ∈ tables.map (·.tableId),
            toLowerCase a = toLowerCase b → a = b) := by
  refine ⟨namesOnce_iff fun ids => seatPartyBodySchema_ok, namesOnce_iff fun tables => ?_⟩
  rw [assignTablesBodySchema_ok, ne_eq, ne_eq, List.map_eq_nil_iff]

/-- The uuid format of zod: the versions 1 to 8, the nil and the max uuid. -/
def uuidFormat (text : String) : Bool :=
  text = "00000000-0000-0000-0000-000000000000" || text = "ffffffff-ffff-ffff-ffff-ffffffffffff" ||
    match text.toList.splitOn '-' with
    | [timeLow, timeMid, timeHigh, clock, node] =>
      ([timeLow, timeMid, timeHigh, clock, node].map (·.length) = [8, 4, 4, 4, 12]) &&
        [timeLow, timeMid, timeHigh, clock, node].all (·.all isHexDigit) &&
        timeHigh.head?.any (fun c => '1' ≤ c && c ≤ '8') &&
        clock.head?.any (fun c => c ∈ ['8', '9', 'a', 'b', 'A', 'B'])
    | _ => false

def zodTexts : Zod where
  isUuid := uuidFormat
  invalidType expected _ := "Invalid input: expected " ++ expected
  unrecognizedKeys _ := "Unrecognized key"

def lowerSpelling : String := "7b2f0c1e-93d4-4a6b-8f10-5c2d7e9a4b31"

def upperSpelling : String := "7B2F0C1E-93D4-4A6B-8F10-5C2D7E9A4B31"

def seatBothSpellings : Json :=
  .object [("tableIds", .array [.string lowerSpelling, .string upperSpelling])]

def assignBothSpellings : Json :=
  .object [("tables", .array [
    .object [("tableId", .string lowerSpelling), ("count", .number 2)],
    .object [("tableId", .string upperSpelling), ("count", .number 2)]])]

/-- One table in two spellings passes both schemas. -/
theorem one_table_named_twice :
    (seatPartyBodySchema zodTexts seatBothSpellings = .ok ⟨[lowerSpelling, upperSpelling]⟩ ∧
      ¬ NamesOnce id (SeatPartyForm zodTexts seatBothSpellings)
        (fun ids => seatPartyBodySchema zodTexts seatBothSpellings = .ok ⟨ids⟩)) ∧
    assignTablesBodySchema zodTexts assignBothSpellings = .ok [⟨lowerSpelling, 2⟩, ⟨upperSpelling, 2⟩] ∧
      ¬ NamesOnce (fun tables => tables.map (·.tableId)) (AssignTablesForm zodTexts assignBothSpellings)
        (fun tables => assignTablesBodySchema zodTexts assignBothSpellings = .ok tables) := by
  have hlower : uuidFormat lowerSpelling = true := by decide +kernel
  have hupper : uuidFormat upperSpelling = true := by decide +kernel
  have hdistinct : [lowerSpelling, upperSpelling].Nodup := by decide +kernel
  have hsame : ¬ ([lowerSpelling, upperSpelling].map Uuid.ofText).Nodup := by decide +kernel
  have hseat : seatPartyBodySchema zodTexts seatBothSpellings = .ok ⟨[lowerSpelling, upperSpelling]⟩ := by
    refine seatPartyBodySchema_ok.mpr ⟨⟨⟨_, rfl, by simp⟩, rfl, ?_⟩, by simp, hdistinct⟩
    simpa using ⟨hlower, hupper⟩
  have hassign : assignTablesBodySchema zodTexts assignBothSpellings =
      .ok [⟨lowerSpelling, 2⟩, ⟨upperSpelling, 2⟩] := by
    refine assignTablesBodySchema_ok.mpr ⟨⟨_, rfl, .cons ?_ (.cons ?_ .nil)⟩, by simp, hdistinct⟩
    · exact ⟨rfl, hlower, rfl, by decide, by decide⟩
    · exact ⟨rfl, hupper, rfl, by decide, by decide⟩
  exact ⟨⟨hseat, fun h => hsame (h.1 _ hseat).2⟩, hassign, fun h => hsame (h.1 _ hassign).2⟩

end SpotQueue.DistinctTables
