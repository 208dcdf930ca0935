import SpotQueue.Simulation

namespace SpotQueue.ActiveTickets

open SpotQueue.Entity SpotQueue.Repository SpotQueue.Environment SpotQueue.UseCases SpotQueue.Queries
open SpotQueue.Frame SpotQueue.Recalculation SpotQueue.Registration SpotQueue.StoreChanges
open SpotQueue.RowChanges SpotQueue.SequentialRun SpotQueue.Simulation
open SpotQueue.Awaits.AsyncProgram SpotQueue.Awaits.AsyncProtocol SpotQueue.Awaits.LabelledRun

variable {E F : Env} {w v z v' z' : World} {s s' : Store} {tr : History} {start : Time}
  {D : Time → Prop} {e d : QueueEntry} {userId restaurantId : String}

/-- No user waits with two tickets. -/
def OneTicket (s : Store) : Prop :=
  ∀ e ∈ s.entries, ∀ d ∈ s.entries, e.status = .waiting → d.status = .waiting →
    e.userId ≠ none → e.userId = d.userId → e = d

theorem rowChange_waiting (h : RowChange D e d) (hw : d.status = .waiting) :
    e.status = .waiting ∧ d.userId = e.userId := by
  cases h with
  | kept => exact ⟨hw, rfl⟩
  | moved hwaiting hd => exact ⟨hwaiting, by rw [hd]⟩
  | left _ hd => exact (leaves_status hd hw).elim

theorem oneTicket_rows {r : Uuid} (h : RowsChange D r s s') (hs : OneTicket s) : OneTicket s' := by
  obtain ⟨f, hf, hrow⟩ := h
  intro e' he' d' hd' hew hdw huser hsame
  rw [hf, List.mem_map] at he' hd'
  obtain ⟨e, he, rfl⟩ := he'
  obtain ⟨d, hd, rfl⟩ := hd'
  obtain ⟨hew, heu⟩ := rowChange_waiting (hrow e he).1 hew
  obtain ⟨hdw, hdu⟩ := rowChange_waiting (hrow d hd).1 hdw
  rw [heu, hdu] at hsame
  rw [heu] at huser
  rw [hs e he d hd hew hdw huser hsame]

theorem oneTicket_changes {op : Operation} (h : Changes E op D s s') (hs : OneTicket s) :
    OneTicket s' := by
  induction h with
  | refl => exact hs
  | tail _ hlast ih => exact oneTicket_rows (change_rows hlast) ih

theorem oneTicket_joined {hfresh : e.id ∉ s.entries.map (·.id)} {changedBy : String} {now : Time}
    (huser : ∀ userId ∈ e.userId, s.activeByUserId userId = []) (hs : OneTicket s) :
    OneTicket (joinedStore s e hfresh changedBy now) := by
  have hnone : ∀ c ∈ s.entries, c.status = .waiting → e.userId ≠ none → c.userId ≠ e.userId := by
    intro c hc hw hu hsame
    obtain ⟨userId, hid⟩ := Option.ne_none_iff_exists'.mp hu
    have hactive : c ∈ s.activeByUserId userId := by simp [Store.activeByUserId, hc, hw, hsame, hid]
    rw [huser userId hid] at hactive
    cases hactive
  intro a ha b hb haw hbw hau hsame
  obtain haold | hanew := List.mem_append.mp ha
  · obtain hbold | hbnew := List.mem_append.mp hb
    · exact hs a haold b hbold haw hbw hau hsame
    · rw [List.mem_singleton.mp hbnew] at hsame
      exact (hnone a haold haw (hsame ▸ hau) hsame).elim
  · obtain hbold | hbnew := List.mem_append.mp hb
    · rw [List.mem_singleton.mp hanew] at hsame hau
      exact (hnone b hbold hbw hau hsame.symm).elim
    · rw [List.mem_singleton.mp hanew, List.mem_singleton.mp hbnew]

theorem oneTicket_step {l : Executed} (hrun : Run (Sequential E) (World.empty start) tr w)
    (hs : OneTicket w.store) (hstep : Sequential E w l w') : OneTicket w'.store := by
  obtain ⟨op, calls, result⟩ := l
  cases run_outcome hrun hstep with
  | changed _ _ _ hchanges => exact oneTicket_changes hchanges hs
  | joined _ _ _ hout _ hend =>
    rw [hend, respond_store]
    dsimp only at hout
    cases hout with
    | refused hstill =>
      rw [hstill.store]
      exact hs
    | registered _ _ _ _ _ _ _ huser hv hrest =>
      rw [(announce_calm ⟨_, hrest⟩).store, hv.store]
      exact oneTicket_joined huser hs

theorem run_oneTicket (hrun : Run (Sequential E) (World.empty start) tr w) : OneTicket w.store :=
  run_invariant (I := fun _ w => OneTicket w.store) (G := fun _ => True)
    (by simp [OneTicket, World.empty, Store.empty])
    (fun hrun hs hstep _ => oneTicket_step hrun hs hstep) hrun fun _ _ => trivial

theorem mem_activeByUserId {u : Uuid} :
    e ∈ s.activeByUserId u ↔ e ∈ s.entries ∧ e.userId = some u ∧ e.status = .waiting := by
  simp [Store.activeByUserId]

theorem mem_activeByUserIdAndRestaurantId {r u : Uuid} :
    e ∈ activeByUserIdAndRestaurantId s r u ↔ e ∈ s.activeByUserId u ∧ e.restaurantId = r := by
  simp [activeByUserIdAndRestaurantId, mem_activeByUserId]
  tauto

theorem getActiveQueueByUser_executes {H : Answers Call Answer QueueError World}
    {active : GetActiveQueueByUserResponse}
    (h : Executes (QueryAnswers E H) (getActiveQueueByUser ⟨restaurantId, userId⟩) w (.ok active) w') :
    (active.hasActiveQueue = false ∧
      activeByUserIdAndRestaurantId w.store (.ofText restaurantId) (.ofText userId) = []) ∨
    ∃ e ∈ activeByUserIdAndRestaurantId w.store (.ofText restaurantId) (.ofText userId),
      active.hasActiveQueue = true ∧ ∃ details, active.queueEntry = some details ∧
        details.queueEntryId = e.id := by
  obtain ⟨o, u, ⟨_, -, -, hanswer⟩, h⟩ | ⟨_, he, -⟩ := executes_call_bind h
  swap
  · cases he
  obtain hrejected | ⟨_, hmem, hnone, hok⟩ := hanswer
  · cases hrejected
  cases hok
  cases o with
  | none =>
    obtain ⟨hx, -⟩ := executes_pure.mp h
    cases hx
    exact .inl ⟨rfl, hnone rfl⟩
  | some e =>
    obtain ⟨hx, -⟩ := executes_pure.mp h
    cases hx
    exact .inr ⟨e, (hmem e rfl).1, rfl, _, rfl, rfl⟩

theorem getCustomerQueueStatus_executes {status : Option GetCustomerQueueStatusOutput}
    (h : Executes (QueryAnswers F F.Answers) (getCustomerQueueStatus userId) w (.ok status) w') :
    (status = none ∧ w.store.activeByUserId (.ofText userId) = []) ∨
      ∃ e ∈ w.store.activeByUserId (.ofText userId), status = some ⟨e.restaurantId, e.id⟩ := by
  obtain ⟨o, u, hanswer, h⟩ | ⟨_, he, -⟩ := executes_call_bind h
  swap
  · cases he
  obtain ⟨_, -, ⟨_, hmem, hnone, hok⟩, -⟩ := Guards.answers_ok hanswer
  cases hok
  cases o with
  | none =>
    obtain ⟨hx, -⟩ := executes_pure.mp h
    cases hx
    exact .inl ⟨rfl, hnone rfl⟩
  | some e =>
    have he := (hmem e rfl).1
    have hwaiting : e.status = .waiting := (of_decide_eq_true (List.mem_filter.mp he).2).2
    change Executes _ (if _ then _ else _) _ _ _ at h
    rw [if_neg (not_not.mpr hwaiting)] at h
    obtain ⟨hx, -⟩ := executes_pure.mp h
    cases hx
    exact .inr ⟨e, he, rfl⟩

/-- On the store of a run the two queries name the same ticket, or none. -/
theorem active_queries_agree (hrun : Run (Sequential E) (World.empty start) tr w)
    {active : GetActiveQueueByUserResponse} {status : Option GetCustomerQueueStatusOutput}
    (hv : v.store = w.store) (hz : z.store = w.store)
    (hactive : Executes (QueryAnswers F F.Answers) (getActiveQueueByUser ⟨restaurantId, userId⟩) v
      (.ok active) v')
    (hstatus : Executes (QueryAnswers F F.Answers) (getCustomerQueueStatus userId) z (.ok status) z') :
    (active.hasActiveQueue = true ↔ ∃ s, status = some s ∧ s.restaurantId = .ofText restaurantId) ∧
      ∀ s, status = some s → s.restaurantId = .ofText restaurantId →
        ∃ details, active.queueEntry = some details ∧ details.queueEntryId = s.queueEntryId := by
  have hone := run_oneTicket hrun
  have hactive := getActiveQueueByUser_executes hactive
  have hstatus := getCustomerQueueStatus_executes hstatus
  rw [hv] at hactive
  rw [hz] at hstatus
  obtain ⟨rfl, hempty⟩ | ⟨e, he, rfl⟩ := hstatus
  · obtain ⟨hfalse, -⟩ | ⟨d, hd, -⟩ := hactive
    · exact ⟨by simp [hfalse], nofun⟩
    · have hmem := (mem_activeByUserIdAndRestaurantId.mp hd).1
      rw [hempty] at hmem
      cases hmem
  · obtain ⟨hfalse, hempty⟩ | ⟨d, hd, htrue, details, hdetails, hid⟩ := hactive
    · have helse : e.restaurantId ≠ .ofText restaurantId := by
        intro hr
        have hmem := mem_activeByUserIdAndRestaurantId.mpr ⟨he, hr⟩
        rw [hempty] at hmem
        cases hmem
      refine ⟨by simp [hfalse, helse], ?_⟩
      rintro _ ⟨⟩ hr
      exact (helse hr).elim
    · obtain ⟨hduser, hr⟩ := mem_activeByUserIdAndRestaurantId.mp hd
      obtain ⟨hdmem, hdu, hdw⟩ := mem_activeByUserId.mp hduser
      obtain ⟨hemem, heu, hew⟩ := mem_activeByUserId.mp he
      obtain rfl := hone e hemem d hdmem hew hdw (by simp [heu]) (heu.trans hdu.symm)
      refine ⟨by simp [htrue, hr], ?_⟩
      rintro _ ⟨⟩ -
      exact ⟨details, hdetails, hid⟩

/-- User u waits at r. -/
def userWaits : World := smooth.final (.empty 0) [joinOnline "r" "1", walkIn "r" "2"]

def askedByBoth := run smooth.replyQuery (getActiveQueueByUser ⟨"r", "u"⟩) userWaits

def askedByUser := run smooth.replyQuery (getCustomerQueueStatus "u") userWaits

theorem active_queries_agree_online : ∃ active status,
    askedByBoth.2.1 = .ok active ∧ askedByUser.2.1 = .ok status ∧ active.hasActiveQueue = true ∧
      ∃ s, status = some s ∧ s.restaurantId = .ofText "r" := by
  have hqueries := smooth.replyQuery_answers smooth.reply_answers
  have hfound : askedByBoth.2.1.toOption.map (·.hasActiveQueue) = some true := by decide +kernel
  have hanswered : askedByUser.2.1.toOption.isSome = true := by decide +kernel
  have hactive := run_traces hqueries (getActiveQueueByUser ⟨"r", "u"⟩) userWaits
  have hstatus := run_traces hqueries (getCustomerQueueStatus "u") userWaits
  cases ha : askedByBoth.2.1 with
  | error e => rw [ha] at hfound; cases hfound
  | ok active =>
    cases hs : askedByUser.2.1 with
    | error e => rw [hs] at hanswered; cases hanswered
    | ok status =>
      rw [ha] at hfound
      have htrue : active.hasActiveQueue = true := Option.some.inj hfound
      have hagree := active_queries_agree (smooth.history_run (.empty 0) _) rfl rfl
        ⟨_, Eq.subst (motive := fun x => Traces _ _ _ _ x _) ha hactive⟩
        ⟨_, Eq.subst (motive := fun x => Traces _ _ _ _ x _) hs hstatus⟩
      exact ⟨active, status, rfl, rfl, htrue, hagree.1.mp htrue⟩

end SpotQueue.ActiveTickets
