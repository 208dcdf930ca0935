import SpotQueue.RowChanges

namespace SpotQueue.LineOrder

open SpotQueue.Entity SpotQueue.Repository SpotQueue.Environment SpotQueue.Recalculator
open SpotQueue.UseCases SpotQueue.Frame SpotQueue.Line SpotQueue.Recalculation SpotQueue.Leaving
open SpotQueue.StoreChanges SpotQueue.RowChanges

variable {E : Env} {op : Operation} {D : Time → Prop} {s s' : Store} {a b e : QueueEntry}
  {r : Uuid} {l : List QueueEntry}

def Ahead (a b : QueueEntry) : Prop := ∃ p q, a.position = some p ∧ b.position = some q ∧ p < q

/-- Parties still waiting stand in the order they joined in, except that one
whose ticket was moved down is ahead of nobody. Rows are kept in that order. -/
def InOrder (Moved : Uuid → Prop) (s : Store) : Prop :=
  s.entries.Pairwise fun a b => a.restaurantId = b.restaurantId → a.status = .waiting →
    b.status = .waiting → ¬ Moved a.id → Ahead a b

theorem inOrder_getElem? {Moved : Uuid → Prop} {i j : Nat} (h : InOrder Moved s)
    (hi : s.entries[i]? = some a) (hj : s.entries[j]? = some b) (hij : i < j)
    (hr : a.restaurantId = b.restaurantId) (ha : a.status = .waiting) (hb : b.status = .waiting)
    (hm : ¬ Moved a.id) : Ahead a b := by
  obtain ⟨hil, rfl⟩ := List.getElem?_eq_some_iff.mp hi
  obtain ⟨hjl, rfl⟩ := List.getElem?_eq_some_iff.mp hj
  exact List.pairwise_iff_getElem.mp h i j hil hjl hij hr ha hb hm

/-- Whoever waits has a position. -/
def Placed (s : Store) : Prop := ∀ e ∈ s.entries, e.status = .waiting → ∃ p, e.position = some p

/-- Where the row at `x` stands after row `i` went down to `t`. -/
def movedIndex (i t x : Nat) : Nat := if x = i then t else if i < x ∧ x ≤ t then x - 1 else x

theorem splice_movedIndex {i t : Nat} (hi : i ≤ t) (ht : t < l.length) (x : Nat) :
    (splice l i t)[movedIndex i t x]? = l[x]? := by
  have hlt : i < l.length := by omega
  have hlen : (l.eraseIdx i).length = l.length - 1 := List.length_eraseIdx_of_lt hlt
  simp only [splice, List.getElem?_eq_getElem hlt, List.getElem?_insertIdx, List.getElem?_eraseIdx,
    movedIndex]
  grind

/-- Moving row `i` down keeps the order of all others, and of those before it. -/
theorem movedIndex_lt {i t x y : Nat} (hi : i ≤ t) (hxy : x < y) (hne : x ≠ i) :
    movedIndex i t x < movedIndex i t y := by
  unfold movedIndex
  split <;> split <;> grind

theorem targetIndex_ge {i : Nat} (hi : i < l.length) (k : Nat) : i ≤ targetIndex l i k := by
  unfold targetIndex
  omega

/-- Rows whose waiting ones come from waiting ones, unmoved. -/
theorem inOrder_map {Moved : Uuid → Prop} {f : QueueEntry → QueueEntry}
    (hf : ∀ e ∈ s.entries, (f e).status = .waiting → e.status = .waiting ∧ (f e).id = e.id ∧
      (f e).restaurantId = e.restaurantId ∧ (f e).position = e.position)
    (hentries : s'.entries = s.entries.map f) (h : InOrder Moved s) : InOrder Moved s' := by
  rw [InOrder, hentries, List.pairwise_map]
  refine List.Pairwise.imp_of_mem (fun {a b} ha hb hab hr haw hbw hm => ?_) h
  obtain ⟨haw, haid, har, hap⟩ := hf a ha haw
  obtain ⟨hbw, -, hbr, hbp⟩ := hf b hb hbw
  obtain ⟨p, q, hp, hq, hpq⟩ := hab (har ▸ hbr ▸ hr) haw hbw (haid ▸ hm)
  exact ⟨p, q, hap.trans hp, hbp.trans hq, hpq⟩

theorem placed_map {f : QueueEntry → QueueEntry}
    (hf : ∀ e ∈ s.entries, (f e).status = .waiting → e.status = .waiting ∧
      ((f e).position = e.position ∨ ∃ p, (f e).position = some p))
    (hentries : s'.entries = s.entries.map f) (h : Placed s) : Placed s' := by
  intro d hd hw
  rw [hentries] at hd
  obtain ⟨e, he, rfl⟩ := List.mem_map.mp hd
  obtain ⟨hew, hp | hp⟩ := hf e he hw
  · exact hp ▸ h e he hew
  · exact hp

/-- In a line read back in order, whoever is ahead stands first. -/
theorem line_index_lt {x y : Nat} (hline : IsLine s r l) (hx : l[x]? = some a) (hy : l[y]? = some b)
    (hab : Ahead a b) : x < y := by
  obtain ⟨p, q, hp, hq, hpq⟩ := hab
  obtain ⟨hxl, rfl⟩ := List.getElem?_eq_some_iff.mp hx
  obtain ⟨hyl, rfl⟩ := List.getElem?_eq_some_iff.mp hy
  by_contra hyx
  obtain rfl | hlt : y = x ∨ y < x := by omega
  · rw [hp] at hq
    cases hq
    omega
  · have hle := List.pairwise_iff_getElem.mp hline.sorted y x hyl hxl hlt
    simp only [LineLE, hp, hq] at hle
    omega

/-- A write over one line keeps the order if it gives increasing positions to
rows that stood in increasing positions. -/
theorem inOrder_line {Moved : Uuid → Prop} {f : QueueEntry → QueueEntry} (hline : IsLine s r l)
    (hother : ∀ e ∈ s.entries, e ∉ l → f e = e)
    (hrow : ∀ e ∈ l, (f e).status = e.status ∧ (f e).id = e.id ∧
      (f e).restaurantId = e.restaurantId)
    (horder : ∀ (a b : QueueEntry) (x y : Nat), l[x]? = some a → l[y]? = some b → x < y → ¬ Moved a.id →
      Ahead (f a) (f b)) (hentries : s'.entries = s.entries.map f) (h : InOrder Moved s) :
    InOrder Moved s' := by
  rw [InOrder, hentries, List.pairwise_map]
  have hsame : ∀ e ∈ s.entries, (f e).status = e.status ∧ (f e).id = e.id ∧
      (f e).restaurantId = e.restaurantId := by
    intro e he
    by_cases hel : e ∈ l
    · exact hrow e hel
    · rw [hother e he hel]
      exact ⟨rfl, rfl, rfl⟩
  refine List.Pairwise.imp_of_mem (fun {a b} ha hb hab hr haw hbw hm => ?_) h
  rw [(hsame a ha).1] at haw
  rw [(hsame b hb).1] at hbw
  rw [(hsame a ha).2.1] at hm
  rw [(hsame a ha).2.2, (hsame b hb).2.2] at hr
  have hahead := hab hr haw hbw hm
  by_cases har : a.restaurantId = r
  · obtain ⟨x, hx⟩ := List.mem_iff_getElem?.mp ((isLine_mem hline).mpr ⟨ha, har, haw⟩)
    obtain ⟨y, hy⟩ := List.mem_iff_getElem?.mp ((isLine_mem hline).mpr ⟨hb, hr ▸ har, hbw⟩)
    exact horder a b x y hx hy (line_index_lt hline hx hy hahead) hm
  · have hal : a ∉ l := fun hal => har ((isLine_mem hline).mp hal).2.1
    have hbl : b ∉ l := fun hbl => har (hr.trans ((isLine_mem hline).mp hbl).2.1)
    rwa [hother a ha hal, hother b hb hbl]

theorem inOrder_renumber {Moved : Uuid → Prop} {etas : List Nat} {t : Time} (hline : IsLine s r l)
    (hlen : etas.length = l.length)
    (hentries : s'.entries = (s.updatePositions (recalculation l etas) t).entries)
    (h : InOrder Moved s) : InOrder Moved s' := by
  have hcases : ∀ e ∈ s.entries, _ := fun e => renumber_cases (t := t) hline hlen
  refine inOrder_line hline (fun e he hel => ?_) (fun e hel => ?_) (fun a b x y hx hy hxy _ => ?_)
    hentries h
  · obtain ⟨-, hkept⟩ | ⟨j, m, u, hj, -⟩ := hcases e he
    · exact hkept
    · exact (hel (List.mem_of_getElem? hj)).elim
  · obtain ⟨hnot, -⟩ | ⟨j, m, u, -, -, hmoved⟩ := hcases e ((isLine_mem hline).mp hel).1
    · exact (hnot hel).elim
    · rw [hmoved]
      exact ⟨rfl, rfl, rfl⟩
  · have hplace : ∀ {c z}, l[z]? = some c →
        ((recalculation l etas).foldl (applyUpdate t) c).position = some (z + 1) := by
      intro c z hz
      obtain ⟨m, u, -, hu⟩ := renumbered_row (t := t) hline hlen hz
      rw [hu]
    exact ⟨x + 1, y + 1, hplace hx, hplace hy, by omega⟩

theorem inOrder_reorder {Moved : Uuid → Prop} {i k : Nat} {t : Time} (hline : IsLine s r l)
    (hi : l[i]? = some e) (hmoved : Moved e.id)
    (hentries : s'.entries = (shiftedStore s l i k t).entries) (h : InOrder Moved s) :
    InOrder Moved s' := by
  have hperm := shiftedLine_perm hi k
  have hlt := (List.getElem?_eq_some_iff.mp hi).1
  have hcases : ∀ c ∈ s.entries, _ := fun c => reorder_cases (t := t) hline hperm
  have hkey : ((shiftedLine l i k).map (·.id)).Nodup :=
    (hperm.map _).nodup_iff.mpr (isLine_nodup hline)
  refine inOrder_line hline (fun c hc hcl => ?_) (fun c hcl => ?_)
    (fun a b x y hx hy hxy hm => ?_) hentries h
  · obtain ⟨-, hkept⟩ | ⟨j, hj, -⟩ := hcases c hc
    · exact hkept
    · exact (hcl (hperm.mem_iff.mp (List.mem_of_getElem? hj))).elim
  · obtain ⟨hnot, -⟩ | ⟨j, -, hrow⟩ := hcases c ((isLine_mem hline).mp hcl).1
    · exact (hnot hcl).elim
    · rw [hrow]
      exact ⟨rfl, rfl, rfl⟩
  · have hne : x ≠ i := by
      rintro rfl
      rw [hi] at hx
      cases hx
      exact hm hmoved
    have hplace : ∀ {c z}, l[z]? = some c →
        ((reorderUpdates (shiftedLine l i k)).foldl (applyUpdate t) c).position =
          some (movedIndex i (targetIndex l i k) z + 1) := by
      intro c z hz
      have hz' := splice_movedIndex (targetIndex_ge hlt k) (targetIndex_lt hlt k) z
      rw [reordered_row hkey (hz'.trans hz)]
    have hlt' := movedIndex_lt (targetIndex_ge hlt k) hxy hne
    exact ⟨_, _, hplace hx, hplace hy, by omega⟩

theorem inOrder_change {Moved : Uuid → Prop} (hMoved : ∀ id, op.Shifts id → Moved id)
    (hchange : Change E op D s s') (h : InOrder Moved s) : InOrder Moved s' := by
  cases hchange with
  | touch hmem _ hw hd hentries _ =>
    refine inOrder_map (fun c hc hcw => ?_) hentries h
    obtain ⟨rfl, hput⟩ | hput := put_cases hmem (touches_id hd) hc
    · rw [hput, hd]
      exact ⟨hw, rfl, rfl, rfl⟩
    · rw [hput] at hcw ⊢
      exact ⟨hcw, rfl, rfl, rfl⟩
  | leave hmem _ hw hd hentries _ _ =>
    refine inOrder_map (fun c hc hcw => ?_) hentries h
    obtain ⟨rfl, hput⟩ | hput := put_cases hmem (leaves_id hd) hc
    · rw [hput] at hcw
      exact (leaves_status hd hcw).elim
    · rw [hput] at hcw ⊢
      exact ⟨hcw, rfl, rfl, rfl⟩
  | renumber hline hetas hentries _ =>
    exact inOrder_renumber hline (etasOf_length hetas) hentries h
  | reorder hshifts hline hi hentries _ =>
    exact inOrder_reorder hline hi (hMoved _ hshifts) hentries h

theorem placed_change (hchange : Change E op D s s') (h : Placed s) : Placed s' := by
  cases hchange with
  | touch hmem _ hw hd hentries _ =>
    refine placed_map (fun c hc hcw => ?_) hentries h
    obtain ⟨rfl, hput⟩ | hput := put_cases hmem (touches_id hd) hc
    · rw [hput, hd]
      exact ⟨hw, .inl rfl⟩
    · rw [hput] at hcw ⊢
      exact ⟨hcw, .inl rfl⟩
  | leave hmem _ hw hd hentries _ _ =>
    refine placed_map (fun c hc hcw => ?_) hentries h
    obtain ⟨rfl, hput⟩ | hput := put_cases hmem (leaves_id hd) hc
    · rw [hput] at hcw
      exact (leaves_status hd hcw).elim
    · rw [hput] at hcw ⊢
      exact ⟨hcw, .inl rfl⟩
  | @renumber l etas t hline hetas hentries _ =>
    refine placed_map (fun c hc hcw => ?_) hentries h
    obtain ⟨-, hkept⟩ | ⟨j, m, u, hj, -, hmoved⟩ :=
      renumber_cases (t := t) hline (etasOf_length hetas) hc
    · rw [hkept] at hcw ⊢
      exact ⟨hcw, .inl rfl⟩
    · rw [hmoved]
      exact ⟨((isLine_mem hline).mp (List.mem_of_getElem? hj)).2.2, .inr ⟨_, rfl⟩⟩
  | @reorder l e i k t _ hline hi hentries _ =>
    refine placed_map (fun c hc hcw => ?_) hentries h
    have hperm := shiftedLine_perm hi k
    obtain ⟨-, hkept⟩ | ⟨j, hj, hmoved⟩ := reorder_cases (t := t) hline hperm hc
    · rw [hkept] at hcw ⊢
      exact ⟨hcw, .inl rfl⟩
    · rw [hmoved]
      have hmem := hperm.mem_iff.mp (List.mem_of_getElem? hj)
      exact ⟨((isLine_mem hline).mp hmem).2.2, .inr ⟨_, rfl⟩⟩

theorem changes_inOrder {Moved : Uuid → Prop} (hMoved : ∀ id, op.Shifts id → Moved id)
    (hchanges : Changes E op D s s') (h : InOrder Moved s) (hp : Placed s) :
    InOrder Moved s' ∧ Placed s' := by
  induction hchanges with
  | refl => exact ⟨h, hp⟩
  | tail _ hlast ih => exact ⟨inOrder_change hMoved hlast ih.1, placed_change hlast ih.2⟩

end SpotQueue.LineOrder
