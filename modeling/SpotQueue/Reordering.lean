import SpotQueue.LineOrder
import SpotQueue.LinePositions
import SpotQueue.LiveRun
import SpotQueue.SettledLine

namespace SpotQueue.Reordering

open SpotQueue.Entity SpotQueue.Repository SpotQueue.Environment SpotQueue.Recalculator
open SpotQueue.UseCases SpotQueue.Frame SpotQueue.Guards SpotQueue.Line SpotQueue.Recalculation
open SpotQueue.Seating SpotQueue.Leaving SpotQueue.LinePositions SpotQueue.StoreChanges
open SpotQueue.RowChanges SpotQueue.LineOrder SpotQueue.Simulation SpotQueue.SettledLine
open SpotQueue.LiveRun
open SpotQueue.Awaits.AsyncProgram SpotQueue.Awaits.AsyncProtocol

variable {E : Env} {w u v w' : World} {s s' : Store} {r : Uuid} {l l' : List QueueEntry}
  {x e d : QueueEntry} {f g : QueueEntry → QueueEntry} {i : Nat}

/-- What ordering a line as `l'` makes of a row: its place in it, and a new estimate. -/
inductive Arranged (l' : List QueueEntry) (e : QueueEntry) : QueueEntry → Prop
  | outside (hout : e ∉ l') : Arranged l' e e
  | placed {j m : Nat} {t : Time} (hj : l'[j]? = some e) :
      Arranged l' e
        { e with position := some (j + 1), estimatedWaitMinutes := some m, updatedAt := t }

theorem arranged_sameTicket (h : Arranged l' e d) : SameTicket e d := by
  cases h <;> rfl

/-- A recalculation finds a line that was moved by hand the way it was moved. -/
theorem arranged_recalculated {q : String} (hline : IsLine s (.ofText q) l) (hperm : l'.Perm l)
    (hentries : s'.entries = s.entries.map f) (hf : ∀ e ∈ s.entries, Reordered l l' e (f e))
    {s'' : Store} (hrecalculated : Recalculates E q s' s'') :
    ∃ g : QueueEntry → QueueEntry, s''.entries = s.entries.map g ∧
      ∀ e ∈ s.entries, Arranged l' e (g e) := by
  obtain ⟨l₁, etas, t, hline₁, hetas, rfl⟩ := hrecalculated
  obtain rfl := reordered_line hline hperm hentries hf hline₁
  have hkey : (l'.map (·.id)).Nodup := (hperm.map _).nodup_iff.mpr (isLine_nodup hline)
  refine ⟨fun e => (recalculation (l'.map f) etas).foldl (applyUpdate t) (f e), ?_, fun e he => ?_⟩
  · rw [Store.updatePositions_entries, hentries, List.map_map]
    rfl
  have hsame : ∀ c ∈ s.entries, SameTicket c (f c) := fun c hc => reordered_sameTicket (hf c hc)
  have hback : ∀ c ∈ l', f c = f e → c = e := by
    intro c hc hfc
    have hcs := ((isLine_mem hline).mp (hperm.mem_iff.mp hc)).1
    have hcid : (f c).id = c.id := by rw [hsame c hcs]
    have heid : (f e).id = e.id := by rw [hsame e he]
    exact eq_of_id_eq s.key hcs he (hcid.symm.trans (hfc ▸ heid))
  obtain ⟨hout, hkept⟩ | ⟨j, m, u, hj, -, hmoved⟩ :=
    renumber_cases (t := t) hline₁ (etasOf_length hetas) (hentries ▸ List.mem_map_of_mem he)
  · have hel : e ∉ l' := fun h => hout (List.mem_map_of_mem h)
    dsimp only
    rw [hkept]
    have hfe := hf e he
    generalize f e = d at hfe
    cases hfe with
    | outside _ => exact .outside hel
    | placed hj => exact (hel (List.mem_of_getElem? hj)).elim
  · rw [List.getElem?_map, Option.map_eq_some_iff] at hj
    obtain ⟨c, hc, hfc⟩ := hj
    obtain rfl := hback c (List.mem_of_getElem? hc) hfc
    dsimp only
    rw [hmoved]
    have hfe := hf c he
    generalize f c = d at hfe
    cases hfe with
    | outside hout => exact (hout (hperm.mem_iff.mp (List.mem_of_getElem? hc))).elim
    | placed _ => exact .placed hc

def positionOf (s : Store) (id : Uuid) : Option Nat := (s.find id).bind (·.position)

/-- Party `x`, which stood in line `l`, now stands at place `target` of it, and
everybody else waits in the order they had. -/
structure MovedDown (x : QueueEntry) (l : List QueueEntry) (target : Nat) (s s' : Store) : Prop where
  waits : ∃ d, s'.find x.id = some d ∧ d.status = .waiting
  place : positionOf s' x.id = some (target + 1)
  same : (s'.waiting x.restaurantId).map (·.id) = (s.waiting x.restaurantId).map (·.id)
  numbered : InLine x.restaurantId s'
  order : ∀ (a b : Nat) (d e : QueueEntry), l[a]? = some d → l[b]? = some e → d.id ≠ x.id →
    e.id ≠ x.id → a < b → ∃ p q, positionOf s' d.id = some p ∧ positionOf s' e.id = some q ∧ p < q
  others : ∀ e : QueueEntry, e.restaurantId ≠ x.restaurantId → (e ∈ s'.entries ↔ e ∈ s.entries)

theorem arranged_waiting (hentries : s'.entries = s.entries.map g)
    (hg : ∀ e ∈ s.entries, Arranged l' e (g e)) : s'.waiting r = (s.waiting r).map g :=
  waiting_map hentries fun e he => by rw [arranged_sameTicket (hg e he)]

section arranged

variable (hline : IsLine s r l) (hperm : l'.Perm l) (hentries : s'.entries = s.entries.map g)
  (hg : ∀ e ∈ s.entries, Arranged l' e (g e))

include hline hperm hg

theorem arranged_row {j : Nat} (hj : l'[j]? = some e) :
    (g e).status = .waiting ∧ (g e).position = some (j + 1) := by
  have hkey : (l'.map (·.id)).Nodup := (hperm.map _).nodup_iff.mpr (isLine_nodup hline)
  obtain ⟨hmem, -, hwaiting⟩ := (isLine_mem hline).mp (hperm.mem_iff.mp (List.mem_of_getElem? hj))
  have hrow := hg e hmem
  generalize g e = d at hrow
  cases hrow with
  | outside hout => exact (hout (List.mem_of_getElem? hj)).elim
  | placed hplace =>
    obtain ⟨rfl, -⟩ := index_unique hkey hplace hj rfl
    exact ⟨hwaiting, rfl⟩

include hentries

theorem arranged_find {j : Nat} (hj : l'[j]? = some e) : s'.find e.id = some (g e) := by
  obtain ⟨hmem, -⟩ := (isLine_mem hline).mp (hperm.mem_iff.mp (List.mem_of_getElem? hj))
  refine find_eq_some.mpr ⟨hentries ▸ List.mem_map_of_mem hmem, ?_⟩
  rw [arranged_sameTicket (hg e hmem)]

theorem arranged_position {j : Nat} (hj : l'[j]? = some e) : positionOf s' e.id = some (j + 1) := by
  rw [positionOf, arranged_find hline hperm hentries hg hj, Option.bind_some]
  exact (arranged_row hline hperm hg hj).2

theorem arranged_inLine : InLine r s' := by
  refine inLine_of_numbered (l := l'.map g) ?_ fun j d hd => ?_
  · rw [arranged_waiting hentries hg]
    exact (hperm.trans hline.perm).map g
  · rw [List.getElem?_map, Option.map_eq_some_iff] at hd
    obtain ⟨e, he, rfl⟩ := hd
    exact (arranged_row hline hperm hg he).2

theorem arranged_others (hr : e.restaurantId ≠ r) : e ∈ s'.entries ↔ e ∈ s.entries := by
  have hkept : ∀ c ∈ s.entries, c.restaurantId ≠ r → g c = c := by
    intro c hc hother
    have hrow := hg c hc
    generalize g c = d at hrow
    cases hrow with
    | outside => rfl
    | placed hj =>
      exact (hother ((isLine_mem hline).mp (hperm.mem_iff.mp (List.mem_of_getElem? hj))).2.1).elim
  rw [hentries, List.mem_map]
  constructor
  · rintro ⟨c, hc, rfl⟩
    have howned : (g c).restaurantId = c.restaurantId := by rw [arranged_sameTicket (hg c hc)]
    rwa [hkept c hc (howned ▸ hr)]
  · exact fun he => ⟨e, he, hkept e he hr⟩

end arranged

theorem movedDown_of_arranged {k : Nat} (hline : IsLine s x.restaurantId l) (hi : l[i]? = some x)
    (hentries : s'.entries = s.entries.map g)
    (hg : ∀ e ∈ s.entries, Arranged (shiftedLine l i k) e (g e)) :
    MovedDown x l (targetIndex l i k) s s' := by
  have hperm := shiftedLine_perm hi k
  have hlt := (List.getElem?_eq_some_iff.mp hi).1
  have htarget := shiftedLine_target hi k
  have hplace : ∀ {j e}, l[j]? = some e →
      positionOf s' e.id = some (movedIndex i (targetIndex l i k) j + 1) := by
    intro j e hj
    apply arranged_position hline hperm hentries hg
    rw [shiftedLine, splice_movedIndex (targetIndex_ge hlt k) (targetIndex_lt hlt k), hj]
  refine ⟨⟨g x, arranged_find hline hperm hentries hg htarget,
      (arranged_row hline hperm hg htarget).1⟩, arranged_position hline hperm hentries hg htarget, ?_,
    arranged_inLine hline hperm hentries hg, ?_, fun e => arranged_others hline hperm hentries hg⟩
  · rw [arranged_waiting hentries hg, List.map_map]
    apply List.map_congr_left
    intro e he
    rw [Function.comp_apply, arranged_sameTicket (hg e (waiting_mem.mp he).1)]
  · intro a b d e ha hb hd he hab
    have hother : ∀ {j c}, l[j]? = some c → c.id ≠ x.id → j ≠ i := by
      rintro j c hj hc rfl
      exact hc (congrArg (·.id) (Option.some.inj (hj.symm.trans hi)))
    have horder := movedIndex_lt (targetIndex_ge hlt k) hab (hother ha hd)
    exact ⟨_, _, hplace ha, hplace hb, by omega⟩

/-- The same surroundings, with nothing that fails. -/
abbrev unfailing (E : Env) : Env := { E with fails := fun _ => False }

theorem unfailing_not_essential : ¬ EssentialFails (unfailing E) := fun ⟨_, _, hfails⟩ => hfails

theorem broadcast_delivers {q : String} {event : ServerEvent} {data : Payload}
    {x : Except QueueError Unit}
    (h : (unfailing E).Answers (.broadcastToRestaurant q event data) w x w') :
    x = .ok () ∧ w'.deliveries = w.deliveries ++ [.toRestaurant q event data] := by
  obtain ⟨t, -, ⟨rfl, rfl⟩ | ⟨-, hfails, -⟩⟩ := h
  · exact ⟨rfl, rfl⟩
  · exact hfails.elim

theorem send_delivers {q : String} {event : ServerEvent} {data : Payload} {x : Except QueueError Unit}
    (h : (unfailing E).Answers (.sendToTicket q event data) w x w') :
    x = .ok () ∧ w'.deliveries = w.deliveries ++ [.toTicket q event data] := by
  obtain ⟨t, -, ⟨rfl, rfl⟩ | ⟨-, hfails, -⟩⟩ := h
  · exact ⟨rfl, rfl⟩
  · exact hfails.elim

theorem notifySkipped_delivers {input : SkipPartyInput} {reason : String} {position : Option Nat}
    {result : Except QueueError SkipPartyOutput}
    (h : Executes (unfailing E).Answers (notifySkipped input e reason position) w result w') :
    result = .ok ⟨e.id, e.restaurantId, e.status, input.reason, position⟩ ∧
      w'.deliveries = w.deliveries ++
        [.toRestaurant input.restaurantId .queueEntrySkipped
            (.skipped e.id e.restaurantId e.status reason position),
          .toTicket input.queueEntryId .queueEntrySkipped
            (.skipped e.id e.restaurantId e.status reason position)] := by
  obtain ⟨_, u, hbroadcast, h⟩ | ⟨err, -, hbroadcast⟩ := executes_call_bind h
  swap
  · cases (broadcast_delivers hbroadcast).1
  obtain ⟨_, v, hsend, h⟩ | ⟨err, -, hsend⟩ := executes_call_bind h
  swap
  · cases (send_delivers hsend).1
  obtain ⟨rfl, rfl⟩ := executes_pure.mp h
  refine ⟨rfl, ?_⟩
  rw [(send_delivers hsend).2, (broadcast_delivers hbroadcast).2, List.append_assoc]
  rfl

/-- A waiting party that is to be moved is looked up in the line it waits in. -/
theorem skipParty_reorders {input : SkipPartyInput} {calls : Calls} {k : Nat}
    {result : Except QueueError SkipPartyOutput} (hx : x ∈ w.store.entries)
    (hwaiting : x.status = .waiting) (hid : input.queueEntryId = x.id.text)
    (hr : input.restaurantId = x.restaurantId.text) (hk : input.skipPositions = some (k + 1))
    (h : Traces (unfailing E).Answers (skipParty input) w calls result w') :
    ∃ l i u, lineAnswered calls = some l ∧ IsLine w.store x.restaurantId l ∧ l[i]? = some x ∧
      Still (unfailing E) w u ∧
      Executes (unfailing E).Answers (reorder input x (k + 1) l i) u result w' := by
  have hresolved : ∀ {c err u v}, ¬ Transaction c → ¬ (unfailing E).Answers c u (.error err) v := by
    intro c err u v hc h
    obtain ⟨a, ha⟩ := resolved_answers (fun _ => id) hc h
    cases ha
  rw [skipParty, findOwned, bind_assoc] at h
  obtain ⟨o, u, rest, rfl, hfind, h⟩ | ⟨err, -, -, hfind⟩ := traces_call_bind h
  swap
  · exact (hresolved id hfind).elim
  have hwu := answers_still (c := .findById _) trivial hfind
  have hstored : w.store.findById input.queueEntryId = some x := by
    rw [Store.findById, hid, Uuid.ofText_text]
    exact find_eq_some.mpr ⟨hx, rfl⟩
  obtain ⟨t, -, ho, -⟩ := answers_ok hfind
  obtain rfl : o = some x := (Except.ok.inj ho).trans hstored
  have howned : ¬ x.restaurantId.text ≠ input.restaurantId := not_not.mpr hr.symm
  have hguard : requireWaiting input.queueEntryId x = pure () := if_neg (not_not.mpr hwaiting)
  dsimp only at h
  rw [if_neg howned] at h
  change Traces _ (requireWaiting input.queueEntryId x >>= _) _ _ _ _ at h
  rw [hguard, hk] at h
  obtain ⟨l, v, rest, rfl, hl, h⟩ | ⟨err, -, -, hl⟩ := traces_call_bind h
  swap
  · exact (hresolved id hl).elim
  have huv := answers_still (c := .findActiveEntries _) trivial hl
  obtain ⟨t, -, ⟨l', hline, hl'⟩, -⟩ := answers_ok hl
  cases hl'
  change IsLine u.store (.ofText input.restaurantId) l at hline
  rw [hwu.store, hr, Uuid.ofText_text] at hline
  have hmem : x ∈ l := (isLine_mem hline).mpr ⟨hx, rfl, hwaiting⟩
  cases hindex : l.findIdx? (·.id.text = input.queueEntryId) with
  | none =>
    have hnone := List.findIdx?_eq_none_iff.mp hindex x hmem
    simp [hid] at hnone
  | some i =>
    obtain ⟨hlt, hq, -⟩ := List.findIdx?_eq_some_iff_getElem.mp hindex
    have hrow : l[i] = x := by
      apply List.inj_on_of_nodup_map (isLine_nodup hline) (List.getElem_mem hlt) hmem
      exact Uuid.text_injective ((of_decide_eq_true hq).trans hid)
    rw [hindex] at h
    exact ⟨l, i, v, rfl, hline, List.getElem?_eq_some_iff.mpr ⟨hlt, hrow⟩, still_trans hwu huv, _, h⟩

/-- Moving a waiting party down a line, with every call succeeding, does that and nothing else. -/
theorem skipParty_moves {input : SkipPartyInput} {calls : Calls} {k : Nat}
    {result : Except QueueError SkipPartyOutput} (hok : ∀ ev ∈ calls, ∃ a, ev.answer = .ok a)
    (hx : x ∈ w.store.entries) (hwaiting : x.status = .waiting)
    (hid : input.queueEntryId = x.id.text) (hr : input.restaurantId = x.restaurantId.text)
    (hk : input.skipPositions = some k) (hpos : 0 < k)
    (h : Traces E.Answers (skipParty input) w calls result w') :
    ∃ l i output before changedAt, lineAnswered calls = some l ∧
      IsLine w.store x.restaurantId l ∧ l[i]? = some x ∧
      MovedDown x l (min (i + k) (l.length - 1)) w.store w'.store ∧
      result = .ok output ∧ output.position = positionOf w'.store x.id ∧
      w'.deliveries = before ++
        [.toRestaurant input.restaurantId .queueEntrySkipped
            (.skipped x.id x.restaurantId .waiting (shiftedReason input.reason k) output.position),
          .toTicket input.queueEntryId .queueEntrySkipped
            (.skipped x.id x.restaurantId .waiting (shiftedReason input.reason k) output.position)] ∧
      w'.store.history = w.store.history ++ [⟨x.id, some .waiting, .waiting, some input.staffUserId,
        some (shiftedReason input.reason k), none, changedAt⟩] ∧
      w'.store.assignments = w.store.assignments := by
  obtain ⟨k, rfl⟩ : ∃ j, k = j + 1 := ⟨k - 1, by omega⟩
  have h := traces_fails (Q := fun _ => False) (fun ev hev e he => by
    obtain ⟨a, ha⟩ := hok ev hev
    cases he.symm.trans ha) h
  obtain ⟨l, i, u, hread, hline, hi, hwu, h⟩ := skipParty_reorders hx hwaiting hid hr hk h
  have hline' : IsLine w.store (.ofText input.restaurantId) l := by rwa [hr, Uuid.ofText_text]
  cases reorder_executes hwaiting hwu hline' hi h with
  | refused hfails => exact (unfailing_not_essential hfails).elim
  | shifted _ hfails => exact (unfailing_not_essential hfails).elim
  | @reordered a _ y z _ hy hz hrest =>
    obtain ⟨f, hentries, hf⟩ := reordered_rows (k := k + 1) (a := a) (t := y.clock) hline hi
    have hstored : z.store.entries = w.store.entries.map f := by
      rw [hz.store, hy.store, ← hentries]
      rfl
    have hrecalculated := recalculate_recalculates unfailing_not_essential
      (fun _ => issues_notifySkipped _ _ _ _) hrest
    obtain ⟨g, hend, hg⟩ :=
      arranged_recalculated hline' (shiftedLine_perm hi _) hstored hf hrecalculated
    have hmoved : MovedDown x l (targetIndex l i (k + 1)) w.store w'.store :=
      movedDown_of_arranged hline hi hend hg
    obtain ⟨_, _, t, -, -, hfinal⟩ := hrecalculated
    obtain ⟨res, v, hrec, hnotify⟩ | ⟨err, -, hrec⟩ := executes_bind hrest
    swap
    · cases recalculate_executes hrec with
      | rejected hfails => exact (unfailing_not_essential hfails).elim
    obtain ⟨rfl, hdelivered⟩ := notifySkipped_delivers hnotify
    refine ⟨l, i, _, v.deliveries, z.clock, hread, hline, hi, hmoved, rfl, hmoved.place.symm, ?_, ?_, ?_⟩
    · rw [hdelivered, ← hwaiting]
      rfl
    · rw [hfinal, hz.store, hy.store, ← hwaiting]
      rfl
    · rw [hfinal, hz.store, hy.store]
      rfl

/-- Three parties wait, and the first is to let one past. -/
def threeWaiting : World :=
  smooth.final (.empty 0) [walkIn "r" "1", walkIn "r" "2", walkIn "r" "3"]

def letOnePast : SkipPartyInput := ⟨"r", "7", "staff", "late", some 1⟩

abbrev onePast := run smooth.reply (skipParty letOnePast) threeWaiting

theorem skipParty_moves_first :
    ∃ x l, lineAnswered onePast.1 = some l ∧ l.length = 3 ∧ x.id = .ofText "7" ∧
      MovedDown x l 1 threeWaiting.store onePast.2.2.store := by
  have hfound : (threeWaiting.store.findById "7").any fun x => x.status = .waiting ∧
      letOnePast.queueEntryId = x.id.text ∧ letOnePast.restaurantId = x.restaurantId.text := by
    decide +kernel
  have hanswered : (onePast.1.all fun ev => ev.answer.toOption.isSome) = true := by decide +kernel
  have hids : (lineAnswered onePast.1).map (·.map (·.id)) =
      some [.ofText "7", .ofText "19", .ofText "31"] := by decide +kernel
  obtain ⟨x, hx, hrow⟩ := (Option.any_eq_true _ _).mp hfound
  obtain ⟨hwaiting, hid, hr⟩ := of_decide_eq_true hrow
  obtain ⟨hmem, hxid⟩ := find_eq_some.mp hx
  obtain ⟨l, i, -, -, -, hread, hline, hi, hmoved, -⟩ :=
    skipParty_moves (answered_ok hanswered) hmem hwaiting hid hr rfl Nat.zero_lt_one
      (run_traces smooth.reply_answers (skipParty letOnePast) threeWaiting)
  rw [hread] at hids
  have hids : l.map (·.id) = [.ofText "7", .ofText "19", .ofText "31"] := Option.some.inj hids
  have hlength : l.length = 3 := by simpa using congrArg List.length hids
  have hfirst : i = 0 := by
    have hzero : (l.map (·.id))[0]? = (l.map (·.id))[i]? := by
      rw [List.getElem?_map, List.getElem?_map, hi, ← List.getElem?_map, hids, Option.map_some, hxid]
      rfl
    exact ((List.getElem?_inj (by simp [hlength]) (isLine_nodup hline)).mp hzero).symm
  rw [hfirst, hlength] at hmoved
  exact ⟨x, l, hread, hlength, hxid, hmoved⟩

end SpotQueue.Reordering
