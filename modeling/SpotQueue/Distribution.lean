import SpotQueue.Occupancy
import Mathlib.Algebra.Order.BigOperators.Group.List
import Mathlib.Algebra.Order.Group.Nat

namespace SpotQueue.Distribution

open SpotQueue.Entity SpotQueue.Repository SpotQueue.Environment SpotQueue.UseCases
open SpotQueue.Frame SpotQueue.Guards SpotQueue.Line SpotQueue.Recalculation SpotQueue.Seating
open SpotQueue.TableCalls SpotQueue.Occupancy SpotQueue.StoreChanges SpotQueue.Simulation
open SpotQueue.Awaits.AsyncProgram SpotQueue.Awaits.AsyncProtocol

variable {E F : Env} {w w' v v' : World} {calls : Calls} {P n base remainder k : Nat} {a b : List Nat}
  {items : List AssignTableItem} {rows : List TableAssignment} {e : QueueEntry} {assignedBy : String}
  {now : Time}

/-- A party spread over n tables as evenly as whole guests allow: the larger
shares come first, and every table gets somebody. -/
structure EvenSplit (partySize n : Nat) (counts : List Nat) : Prop where
  length : counts.length = n
  pos : ∀ k ∈ counts, 1 ≤ k
  descending : counts.Pairwise (· ≥ ·)
  balanced : ∀ k ∈ counts, ∀ l ∈ counts, k ≤ l + 1
  total : counts.sum = max partySize n

/-- Sorted numbers that differ by at most one are known by how many they are and their sum. -/
theorem level_unique (hlength : a.length = b.length) (hsum : a.sum = b.sum)
    (ha : a.Pairwise (· ≥ ·)) (hb : b.Pairwise (· ≥ ·)) (hbala : ∀ k ∈ a, ∀ l ∈ a, k ≤ l + 1)
    (hbalb : ∀ k ∈ b, ∀ l ∈ b, k ≤ l + 1) : a = b := by
  -- the smaller of two different heads bounds its whole list, and falls short of the other sum
  have hheads : ∀ {x y : Nat} {a b : List Nat}, a.length = b.length → (∀ k ∈ a, k ≤ x) →
      (∀ k ∈ b, y ≤ k + 1) → (x :: a).sum = (y :: b).sum → y ≤ x := by
    intro x y a b hlength ha hb hsum
    by_contra hxy
    have hupper : a.sum ≤ a.length • x := List.sum_le_card_nsmul _ _ ha
    have hlower : b.length • x ≤ b.sum := List.card_nsmul_le_sum _ _ fun k hk => by
      have := hb k hk
      omega
    rw [hlength] at hupper
    simp only [List.sum_cons] at hsum
    omega
  induction a generalizing b with
  | nil => exact (List.length_eq_zero_iff.mp hlength.symm).symm
  | cons x a ih =>
    cases b with
    | nil => cases hlength
    | cons y b =>
      obtain ⟨hxa, hatail⟩ := List.pairwise_cons.mp ha
      obtain ⟨hyb, hbtail⟩ := List.pairwise_cons.mp hb
      have htails : a.length = b.length := Nat.succ.inj hlength
      have hyx : y ≤ x := hheads htails hxa
        (fun k hk => hbalb y List.mem_cons_self k (List.mem_cons_of_mem _ hk)) hsum
      have hxy : x ≤ y := hheads htails.symm hyb
        (fun k hk => hbala x List.mem_cons_self k (List.mem_cons_of_mem _ hk)) hsum.symm
      obtain rfl := Nat.le_antisymm hxy hyx
      rw [ih htails (Nat.add_left_cancel hsum) hatail hbtail
        (fun k hk l hl => hbala k (List.mem_cons_of_mem _ hk) l (List.mem_cons_of_mem _ hl))
        fun k hk l hl => hbalb k (List.mem_cons_of_mem _ hk) l (List.mem_cons_of_mem _ hl)]

theorem evenSplit_unique (ha : EvenSplit P n a) (hb : EvenSplit P n b) : a = b :=
  level_unique (ha.length.trans hb.length.symm) (ha.total.trans hb.total.symm) ha.descending
    hb.descending ha.balanced hb.balanced

theorem share_le (h : k ∈ share base remainder n) :
    k ≤ max 1 (base + if 0 < remainder then 1 else 0) := by
  induction n generalizing remainder with
  | zero => simp [share] at h
  | succ n ih =>
    obtain rfl | h := List.mem_cons.mp h
    · exact le_rfl
    · have hrest := ih h
      split at hrest <;> split <;> omega

theorem share_ge (h : k ∈ share base remainder n) : max 1 base ≤ k := by
  induction n generalizing remainder with
  | zero => simp [share] at h
  | succ n ih =>
    obtain rfl | h := List.mem_cons.mp h
    · split <;> omega
    · exact ih h

theorem share_descending (base remainder n : Nat) :
    (share base remainder n).Pairwise (· ≥ ·) := by
  induction n generalizing remainder with
  | zero => exact .nil
  | succ n ih =>
    refine .cons (fun k hk => ?_) (ih _)
    have hrest := share_le hk
    split at hrest <;> split <;> omega

/-- Every round hands out the base, and the first ones a guest of the remainder. -/
theorem share_sum (hbase : 1 ≤ base) (hremainder : remainder ≤ n) :
    (share base remainder n).sum = n * base + remainder := by
  induction n generalizing remainder with
  | zero => simp [share, Nat.le_zero.mp hremainder]
  | succ n ih =>
    have hrest : (share base (remainder - 1) n).sum = n * base + (remainder - 1) :=
      ih (by omega)
    rw [share, List.sum_cons, hrest, Nat.add_mul]
    split <;> omega

/-- With fewer guests than tables everyone counts for a table of their own. -/
theorem share_sum_small : (share 0 remainder n).sum = n := by
  induction n generalizing remainder with
  | zero => rfl
  | succ n ih =>
    rw [share, List.sum_cons, ih]
    split <;> omega

theorem distribute_sum (hn : 0 < n) : (distribute P n).sum = max P n := by
  rw [distribute]
  obtain hP | hP := Nat.lt_or_ge P n
  · rw [Nat.div_eq_of_lt hP, share_sum_small, Nat.max_eq_right hP.le]
  · rw [share_sum (Nat.div_pos hP hn) (Nat.mod_lt P hn).le, Nat.div_add_mod, Nat.max_eq_left hP]

theorem distribute_evenSplit (hn : 0 < n) : EvenSplit P n (distribute P n) where
  length := share_length _ _ _
  pos _ hk := share_pos hk
  descending := share_descending _ _ _
  balanced k hk l hl := by
    have hupper := share_le hk
    have hlower := share_ge hl
    split at hupper <;> omega
  total := distribute_sum hn

theorem distribute_length (P n : Nat) : (distribute P n).length = n := share_length _ _ _

theorem releasePayload_counts (P : Nat) (rows : List TableAssignment) :
    (releasePayload P rows).map (·.occupancyToRelease) = distribute P rows.length := by
  rw [releasePayload]
  rw [← List.map_uncurry_zip_eq_zipWith, List.map_map]
  exact List.map_snd_zip (distribute_length _ _).le

theorem releasePayload_tableIds (P : Nat) (rows : List TableAssignment) :
    (releasePayload P rows).map (·.tableId) = rows.map (·.tableId) := by
  rw [releasePayload]
  rw [← List.map_uncurry_zip_eq_zipWith, List.map_map]
  have hrows := List.map_fst_zip (distribute_length P rows.length).ge
  calc _ = ((rows.zip (distribute P rows.length)).map Prod.fst).map (·.tableId) :=
        (List.map_map ..).symm
    _ = rows.map (·.tableId) := by rw [hrows]

/-- A party of two waits. -/
def pairWaits : World := smooth.final (.empty 0) [walkIn "r" "1"]

theorem pair_stored : (pairWaits.store.findById "7").isSome = true := by decide +kernel

/-- Every assigned table is released once, with the guests that were counted for it. -/
def Undoes (released : List ReleaseTableItem) (assigned : List AssignTableItem) : Prop :=
  ∀ item ∈ assigned, released.filter (·.tableId = Uuid.ofText item.tableId) =
    [⟨.ofText item.tableId, item.count⟩]

/-- The assigned counts, in the order in which the rows of their tables come back. -/
def countsInRowOrder (assigned : List AssignTableItem) (rows : List TableAssignment) : List Nat :=
  rows.map fun a => assignedCount assigned a.tableId

theorem filter_key {α κ : Type} [DecidableEq κ] {f : α → κ} {l : List α} {x : α}
    (hkey : (l.map f).Nodup) (hx : x ∈ l) : l.filter (f · = f x) = [x] := by
  induction l with
  | nil => cases hx
  | cons y l ih =>
    obtain ⟨hy, hkey⟩ := List.nodup_cons.mp hkey
    obtain rfl | hx := List.mem_cons.mp hx
    · rw [List.filter_cons_of_pos (by simp), List.filter_eq_nil_iff.mpr]
      intro z hz
      rw [decide_eq_true_eq]
      exact fun h => hy (h ▸ List.mem_map_of_mem hz)
    · have hne : f y ≠ f x := fun h => hy (h ▸ List.mem_map_of_mem hx)
      rw [List.filter_cons_of_neg (by simpa using hne), ih hkey hx]

theorem assignedCount_item {item : AssignTableItem}
    (hdistinct : (items.map fun i => Uuid.ofText i.tableId).Nodup) (hitem : item ∈ items) :
    assignedCount items (.ofText item.tableId) = item.count := by
  rw [assignedCount, filter_key (f := fun i : AssignTableItem => Uuid.ofText i.tableId) hdistinct hitem]
  simp

theorem undoes_iff_counts {released : List ReleaseTableItem}
    (hdistinct : (items.map fun i => Uuid.ofText i.tableId).Nodup)
    (htables : (released.map (·.tableId)).Perm (items.map fun i => Uuid.ofText i.tableId)) :
    Undoes released items ↔
      ∀ t ∈ released, t.occupancyToRelease = assignedCount items t.tableId := by
  have hkey : (released.map (·.tableId)).Nodup := htables.nodup_iff.mpr hdistinct
  constructor
  · intro h t ht
    obtain ⟨item, hitem, hid⟩ := List.mem_map.mp (htables.mem_iff.mp (List.mem_map_of_mem ht))
    have hone := h item hitem
    rw [hid, filter_key (f := ReleaseTableItem.tableId) hkey ht] at hone
    rw [List.singleton_inj.mp hone, ← hid, assignedCount_item hdistinct hitem]
  · intro h item hitem
    have hmem : Uuid.ofText item.tableId ∈ items.map fun i => Uuid.ofText i.tableId :=
      List.mem_map_of_mem hitem
    obtain ⟨t, ht, hid⟩ := List.mem_map.mp (htables.mem_iff.mpr hmem)
    rw [← hid, filter_key (f := ReleaseTableItem.tableId) hkey ht, ← assignedCount_item hdistinct hitem,
      ← hid, ← h t ht]

theorem evenSplit_iff {counts : List Nat} (hn : 0 < n) : EvenSplit P n counts ↔ counts = distribute P n :=
  ⟨fun h => evenSplit_unique h (distribute_evenSplit hn), fun h => h ▸ distribute_evenSplit hn⟩

theorem newAssignments_tableIds (e : QueueEntry) (tableIds : List String) (assignedBy : String)
    (now : Time) :
    (newAssignments e tableIds assignedBy now).map (·.tableId) = tableIds.map Uuid.ofText := by
  simp [newAssignments, Function.comp_def]

theorem rows_tableIds (hrows : rows.Perm (newAssignments e (items.map (·.tableId)) assignedBy now)) :
    (rows.map (·.tableId)).Perm (items.map fun i => Uuid.ofText i.tableId) := by
  have h := hrows.map (·.tableId)
  rwa [newAssignments_tableIds, List.map_map] at h

theorem undoes_iff_distribute (hdistinct : (items.map fun i => Uuid.ofText i.tableId).Nodup)
    (hrows : rows.Perm (newAssignments e (items.map (·.tableId)) assignedBy now)) :
    Undoes (releasePayload P rows) items ↔ countsInRowOrder items rows = distribute P rows.length := by
  have hcounts : countsInRowOrder items rows =
      (releasePayload P rows).map fun t => assignedCount items t.tableId := by
    have h := congrArg (List.map (assignedCount items)) (releasePayload_tableIds P rows)
    rw [List.map_map, List.map_map] at h
    exact h.symm
  have htables : ((releasePayload P rows).map (·.tableId)).Perm
      (items.map fun i => Uuid.ofText i.tableId) := by
    rw [releasePayload_tableIds]
    exact rows_tableIds hrows
  rw [undoes_iff_counts hdistinct htables, hcounts, ← releasePayload_counts, List.map_inj_left]
  exact ⟨fun h t ht => (h t ht).symm, fun h t ht => (h t ht).symm⟩

/-- Whatever rows the assignment of these tables has left and in whatever order they come
back: the release undoes it just if the counts happen to be the even split in that order. -/
theorem release_undoes_iff (hitems : items ≠ [])
    (hdistinct : (items.map fun i => Uuid.ofText i.tableId).Nodup)
    (hrows : rows.Perm (newAssignments e (items.map (·.tableId)) assignedBy now)) :
    Undoes (releasePayload P rows) items ↔ EvenSplit P rows.length (countsInRowOrder items rows) := by
  have hlength : 0 < rows.length := by
    have h := (rows_tableIds hrows).length_eq
    rw [List.length_map, List.length_map] at h
    rw [h]
    exact List.length_pos_iff.mpr hitems
  rw [undoes_iff_distribute hdistinct hrows, evenSplit_iff hlength]

/-- A party of that size. -/
def partyOf (n : Nat) : QueueEntry :=
  { (pairWaits.store.findById "7").get pair_stored with partySize := n }

/-- Two tables for a party of three, as the service itself splits it. -/
theorem release_undoes_iff_three :
    Undoes (releasePayload 3 (newAssignments (partyOf 3) ["t", "u"] "staff" 0)) [⟨"t", 2⟩, ⟨"u", 1⟩] ↔
      EvenSplit 3 (newAssignments (partyOf 3) ["t", "u"] "staff" 0).length
        (countsInRowOrder [⟨"t", 2⟩, ⟨"u", 1⟩] (newAssignments (partyOf 3) ["t", "u"] "staff" 0)) := by
  have hitems : ([⟨"t", 2⟩, ⟨"u", 1⟩] : List AssignTableItem) ≠ [] := List.cons_ne_nil _ _
  exact release_undoes_iff hitems (by decide) (.refl _)

/-- What staff counted by hand is not what is released, and neither is what the service
counted itself when the rows come back in another order. -/
theorem release_not_undone :
    (¬ ∀ (e : QueueEntry) (items : List AssignTableItem) (rows : List TableAssignment)
      (assignedBy : String) (now : Time), items ≠ [] →
      (items.map fun i => Uuid.ofText i.tableId).Nodup → (∀ i ∈ items, 0 < i.count) →
      e.partySize ≤ (items.map (·.count)).sum →
      rows.Perm (newAssignments e (items.map (·.tableId)) assignedBy now) →
      Undoes (releasePayload e.partySize rows) items) ∧
    ¬ ∀ (e : QueueEntry) (tableIds : List String) (rows : List TableAssignment) (assignedBy : String)
      (now : Time), tableIds ≠ [] → (tableIds.map Uuid.ofText).Nodup →
      rows.Perm (newAssignments e tableIds assignedBy now) →
      Undoes (releasePayload e.partySize rows) (assignmentPayload e.partySize tableIds) := by
  constructor
  · intro h
    have hundone := h (partyOf 4) [⟨"t", 1⟩, ⟨"u", 3⟩] _ "staff" 0 (List.cons_ne_nil _ _) (by decide)
      (by decide) (Nat.le_refl 4) (.refl _)
    have hkept : (releasePayload 4 (newAssignments (partyOf 4) ["t", "u"] "staff" 0)).filter
        (·.tableId = Uuid.ofText "t") = [⟨.ofText "t", 2⟩] := by decide +kernel
    have hone := hkept.symm.trans (hundone ⟨"t", 1⟩ List.mem_cons_self)
    exact absurd (congrArg ReleaseTableItem.occupancyToRelease (List.singleton_inj.mp hone)) (by decide)
  · intro h
    have hundone := h (partyOf 3) ["t", "u"] _ "staff" 0 (List.cons_ne_nil _ _) (by decide)
      (List.reverse_perm _)
    have hkept : (releasePayload 3 (newAssignments (partyOf 3) ["t", "u"] "staff" 0).reverse).filter
        (·.tableId = Uuid.ofText "t") = [⟨.ofText "t", 1⟩] := by decide +kernel
    have hone := hkept.symm.trans (hundone ⟨"t", 2⟩ List.mem_cons_self)
    exact absurd (congrArg ReleaseTableItem.occupancyToRelease (List.singleton_inj.mp hone)) (by decide)

end SpotQueue.Distribution
