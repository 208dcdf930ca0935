import SpotQueue.Leaving

namespace SpotQueue.Registration

open SpotQueue.Entity SpotQueue.Repository SpotQueue.Environment SpotQueue.Recalculator
open SpotQueue.UseCases SpotQueue.Frame SpotQueue.Guards SpotQueue.Line SpotQueue.Recalculation
open SpotQueue.Seating SpotQueue.Awaits.AsyncProgram SpotQueue.Awaits.AsyncProtocol

variable {E : Env} {w u w' : World} {calls : Calls}

/-- The entry a registration builds from what it was told. -/
def ticket (input : RegisterQueueInput) (metrics : RegistrationMetrics) (minutes : Nat) (id : Uuid)
    (now : Time) : QueueEntry :=
  create
    { restaurantId := input.restaurantId
      userId := input.userId
      guestName := input.guestName
      phone := input.guestPhone
      queueNumber := countedQueueNumber (resolvedType input) (metrics.countToday + 1)
      partySize := input.partySize
      specialNotes := input.specialNotes
      fid := input.fid
      registrationType := resolvedType input
      position := metrics.queueDepth + 1
      estimatedWaitMinutes := minutes } id now

/-- The store after createWithHistory of a ticket that passed its checks. -/
def joinedStore (s : Store) (e : QueueEntry) (hfresh : e.id ∉ s.entries.map (·.id))
    (changedBy : String) (now : Time) : Store :=
  (s.insert e hfresh).log ⟨e.id, none, e.status, some changedBy, none, none, now⟩

def Admission : Call → Prop
  | .getRestaurantStatus _ | .checkAvailability _ _ | .findActiveByPhone _ _
  | .findActiveByUserId _ => True
  | _ => False

inductive RegisterOutcome (E : Env) (input : RegisterQueueInput) (w : World) :
    Calls → Except QueueError RegisterQueueOutput → World → Prop
  | refused {calls : Calls} {e : QueueError} {w' : World} (hstill : Still E w w') :
      RegisterOutcome E input w calls (.error e) w'
  | registered {pre post : Calls} {day now : Time} {minutes : Nat} {id : Uuid}
      {metrics : RegistrationMetrics} {e : QueueEntry} {u₁ u₂ u₃ u₄ u₅ v w' : World}
      (hpre : ∀ ev ∈ pre, Admission ev.call)
      (hmetrics : metrics = w.store.getRegistrationMetrics input.restaurantId day)
      (heta : E.eta (.ofText input.restaurantId) metrics.totalPeopleAhead input.partySize minutes)
      (he : e = ticket input metrics minutes id now) (hnow : During E w v now)
      (hfresh : e.id ∉ w.store.entries.map (·.id))
      (hphone : w.store.activeByPhone e.restaurantId e.phone = [])
      (huser : ∀ userId ∈ e.userId, w.store.activeByUserId userId = [])
      (hv : Committed E w (joinedStore w.store e hfresh (changedBy input) v.clock) v)
      (hrest : Traces E.Answers (announce input (metrics.queueDepth + 1) minutes e) v post (.ok ()) w') :
      RegisterOutcome E input w
        (pre ++ ⟨u₁, .getRegistrationMetrics input.restaurantId, .ok metrics, u₂⟩ ::
          ⟨u₂, .predictEta input.restaurantId metrics.totalPeopleAhead input.partySize,
            .ok minutes, u₃⟩ ::
          ⟨u₃, .randomUUID, .ok id, u₄⟩ :: ⟨u₄, .now, .ok now, u₅⟩ ::
          ⟨u₅, .createWithHistory e (changedBy input), .ok e, v⟩ :: post)
        (.ok (toOutputDTO e)) w'

theorem issues_validate {Q : Call → Prop} (status : RestaurantStatusResult) :
    Issues Q (validateRestaurantActiveSubscription status) := by
  change Issues Q (if _ then _ else _)
  split
  · exact issues_throw _
  · change Issues Q (if _ then _ else _)
    split
    · exact issues_throw _
    · exact issues_pure _

/-- The admission asks what its input names. -/
theorem issues_admission {Q : Call → Prop} {input : RegisterQueueInput}
    (hstatus : Q (.getRestaurantStatus input.restaurantId))
    (hcheck : Q (.checkAvailability input.restaurantId input.partySize))
    (hphone : Q (.findActiveByPhone input.restaurantId input.guestPhone))
    (huser : ∀ userId ∈ input.userId, Q (.findActiveByUserId userId)) :
    Issues Q (checkAdmission input) := by
  have hfind : Issues Q (findActiveUser input) := by
    rw [findActiveUser]
    split
    · rename_i userId huserId
      exact issues_call (huser userId huserId)
    · exact issues_pure _
  refine issues_bind (issues_call hstatus) fun status => issues_bind (issues_validate status) fun _ =>
    issues_bind (issues_call hcheck) fun check => ?_
  change Issues Q (if _ then _ else _)
  split
  · exact issues_throw _
  change Issues Q (if _ then _ else _)
  split
  · exact issues_throw _
  refine issues_bind (issues_call hphone) fun existingActivePhone =>
    issues_bind hfind fun existingActiveUser => ?_
  change Issues Q (if _ then _ else _)
  split
  · exact issues_throw _
  change Issues Q (if _ then _ else _)
  split
  · exact issues_throw _
  · exact issues_pure _

theorem issues_checkAdmission (input : RegisterQueueInput) : Issues Admission (checkAdmission input) :=
  issues_admission trivial trivial trivial fun _ _ => trivial

theorem admission_reads {c : Call} (h : Admission c) : Reads c := by
  cases c <;> first | exact h.elim | exact trivial

def Announcement : Call → Prop
  | .now | .redisSet _ _ | .broadcastToRestaurant _ _ _ => True
  | _ => False

theorem announcement_quiet {c : Call} (h : Announcement c) : Quiet c := by
  cases c <;> first | exact h.elim | exact .inl trivial | exact .inr trivial

theorem issues_announce (input : RegisterQueueInput) (position minutes : Nat) (e : QueueEntry) :
    Issues Announcement (announce input position minutes e) := by
  refine issues_bind (issues_attempt ?_ fun _ => issues_pure _) fun _ =>
    issues_attempt (issues_call trivial) fun _ => issues_pure _
  exact issues_attempt (issues_bind (issues_call trivial) fun _ => issues_call trivial)
    fun _ => issues_pure _

theorem announce_calm {input : RegisterQueueInput} {position minutes : Nat} {e : QueueEntry}
    {x : Except QueueError Unit} (h : Executes E.Answers (announce input position minutes e) w x w') :
    Calm E w w' :=
  calm_of_issues (issues_mono (fun _ => announcement_quiet) (issues_announce _ _ _ _)) h

theorem resolves_announce (input : RegisterQueueInput) (position minutes : Nat) (e : QueueEntry) :
    Resolves (announce input position minutes e) :=
  resolves_bind (resolves_attempt _ fun _ => resolves_pure _) fun _ =>
    resolves_attempt _ fun _ => resolves_pure _

theorem createWithHistory_answers {e d : QueueEntry} {changedBy : String} (hu : Still E w u)
    (h : E.Answers (.createWithHistory e changedBy) u (.ok d) w') :
    d = e ∧ (∀ userId ∈ e.userId, w.store.activeByUserId userId = []) ∧
      w.store.activeByPhone e.restaurantId e.phone = [] ∧
      ∃ hfresh, Committed E w (joinedStore w.store e hfresh changedBy w'.clock) w' := by
  obtain ⟨t, ht, hp⟩ := answers_ok h
  obtain ⟨rfl, s, hs, rfl⟩ := transacts_ok hp
  change u.store.createWithHistory _ _ _ = _ at hs
  rw [hu.store] at hs
  obtain ⟨huser, hphone, hfresh, rfl⟩ := Store.createWithHistory_ok.mp hs
  exact ⟨rfl, huser, hphone, hfresh, (still_trans hu (still_at ht)).committed _⟩

theorem registerQueue_executes {input : RegisterQueueInput} {x : Except QueueError RegisterQueueOutput}
    (h : Traces E.Answers (registerQueue input) w calls x w') :
    RegisterOutcome E input w calls x w' := by
  have hreads := issues_mono (fun _ => admission_reads) (issues_checkAdmission input)
  obtain ⟨_, u, pre, post, rfl, hcheck, h⟩ | ⟨e, rfl, hcheck⟩ := traces_bind h
  swap
  · exact .refused (still_of_issues hreads ⟨_, hcheck⟩)
  have hu := still_of_issues hreads ⟨_, hcheck⟩
  have hpre := issues_traces (issues_checkAdmission input) hcheck
  obtain ⟨metrics, u₂, post, rfl, hmetrics, h⟩ | ⟨e, rfl, rfl, hmetrics⟩ := traces_call_bind h
  swap
  · exact .refused (still_trans hu (rejected_still hmetrics))
  have hu₂ := still_trans hu (answers_still (c := .getRegistrationMetrics _) trivial hmetrics)
  obtain ⟨t, -, hm, -⟩ := answers_ok hmetrics
  have hday := (Except.ok.inj hm).trans
    (congrArg (Store.getRegistrationMetrics · input.restaurantId (E.startOfDay t)) hu.store)
  obtain ⟨minutes, u₃, post, rfl, heta, h⟩ | ⟨e, rfl, rfl, heta⟩ := traces_call_bind h
  swap
  · exact .refused (still_trans hu₂ (rejected_still heta))
  have hu₃ := still_trans hu₂ (answers_still (c := .predictEta _ _ _) trivial heta)
  obtain ⟨-, -, ⟨m, hm, hmx⟩, -⟩ := answers_ok heta
  cases hmx
  obtain ⟨id, u₄, post, rfl, hid, h⟩ | ⟨e, rfl, rfl, hid⟩ := traces_call_bind h
  swap
  · exact .refused (still_trans hu₃ (rejected_still hid))
  have hu₄ := still_trans hu₃ (answers_still (c := .randomUUID) trivial hid)
  obtain ⟨now, u₅, post, rfl, hnow, h⟩ | ⟨e, rfl, rfl, hnow⟩ := traces_call_bind h
  swap
  · exact .refused (still_trans hu₄ (rejected_still hnow))
  obtain ⟨hclock, hstill⟩ := now_answers hnow
  have hu₅ := still_trans hu₄ hstill
  obtain ⟨_, v, post, rfl, hcreate, h⟩ | ⟨e, rfl, rfl, hcreate⟩ := traces_call_bind h
  swap
  · exact .refused (still_trans hu₅ (rejected_still hcreate))
  obtain ⟨rfl, huser, hphone, hfresh, hv⟩ := createWithHistory_answers hu₅ hcreate
  obtain ⟨_, z, tr, last, rfl, hannounce, h⟩ | ⟨e, rfl, hannounce⟩ := traces_bind h
  swap
  · obtain ⟨b, hb⟩ := resolves_executes (resolves_announce _ _ _ _) ⟨_, hannounce⟩
    cases hb
  cases h
  cases Except.ok.inj hclock
  rw [List.append_nil]
  exact .registered hpre hday hm rfl ⟨hu₅.later, answers_later hcreate⟩ hfresh hphone huser hv hannounce

end SpotQueue.Registration
