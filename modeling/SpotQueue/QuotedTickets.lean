import SpotQueue.Queries
import SpotQueue.Registration
import SpotQueue.Simulation

namespace SpotQueue.QuotedTickets

open SpotQueue.Entity SpotQueue.Repository SpotQueue.Environment SpotQueue.UseCases SpotQueue.Frame
open SpotQueue.Guards SpotQueue.Line SpotQueue.Registration SpotQueue.Queries SpotQueue.Simulation
open SpotQueue.Awaits.AsyncProgram SpotQueue.Awaits.AsyncProtocol

/-- What the restaurant service and the prediction answer, whoever asks. -/
structure Gates where
  status : String → RestaurantStatusResult
  check : String → Nat → TableAvailabilityResult
  predictEta : String → Nat → Nat → Nat

def Gates.Agrees (gates : Gates) : (c : Call) → Except QueueError (Answer c) → Prop
  | .getRestaurantStatus restaurantId, x => x = .ok (gates.status restaurantId)
  | .checkAvailability restaurantId partySize, x => x = .ok (gates.check restaurantId partySize)
  | .predictEta restaurantId ahead partySize, x => x = .ok (gates.predictEta restaurantId ahead partySize)
  | _, _ => True

def Gates.Answers (gates : Gates) (E : Env) : Answers Call Answer QueueError World :=
  fun c w x w' => E.Answers c w x w' ∧ gates.Agrees c x

def subscriptionError (status : RestaurantStatusResult) : Option QueueError :=
  if status.isBlocked then some (.restaurantBlocked status.restaurantId status.blockReason)
  else if !status.isSubscriptionActive || status.subscriptionPlanCode ≠ some QUEUE_PRO then
    some (.queueProSubscriptionRequired status.restaurantId status.subscriptionPlanCode)
  else none

/-- The error with which the gates turn a party away. -/
def Gates.error (gates : Gates) (restaurantId : String) (partySize : Nat) : Option QueueError :=
  subscriptionError (gates.status restaurantId) <|>
    if !(gates.check restaurantId partySize).isOpen ||
        !(gates.check restaurantId partySize).acceptsQueue then
      some .restaurantNotAccepting
    else none

def GateError : QueueError → Prop
  | .restaurantBlocked _ _ | .queueProSubscriptionRequired _ _ | .restaurantNotAccepting => True
  | _ => False

def ValidatedAs (status : RestaurantStatusResult) : Except QueueError Unit → Prop
  | .ok _ => subscriptionError status = none
  | .error e => subscriptionError status = some e

variable {E : Env} {gates : Gates} {w u v w' : World} {restaurantId : String} {partySize : Nat}

theorem validate_executes {H : Answers Call Answer QueueError World} {status : RestaurantStatusResult}
    {x : Except QueueError Unit}
    (h : Executes H (validateRestaurantActiveSubscription status) w x w') :
    w' = w ∧ ValidatedAs status x := by
  change Executes H (if _ then _ else _) w x w' at h
  split at h
  case isTrue hblocked =>
    obtain ⟨rfl, rfl⟩ := executes_throw.mp h
    exact ⟨rfl, if_pos hblocked⟩
  case isFalse hblocked =>
    change Executes H (if _ then _ else _) w x w' at h
    split at h
    case isTrue hplan =>
      obtain ⟨rfl, rfl⟩ := executes_throw.mp h
      exact ⟨rfl, (if_neg hblocked).trans (if_pos hplan)⟩
    case isFalse hplan =>
      obtain ⟨rfl, rfl⟩ := executes_pure.mp h
      exact ⟨rfl, (if_neg hblocked).trans (if_neg hplan)⟩

theorem gate_of_invalid {e : QueueError} (h : subscriptionError (gates.status restaurantId) = some e) :
    gates.error restaurantId partySize = some e := by
  rw [Gates.error, h]
  rfl

theorem gate_of_closed (h : subscriptionError (gates.status restaurantId) = none)
    (hclosed : (!(gates.check restaurantId partySize).isOpen ||
      !(gates.check restaurantId partySize).acceptsQueue) = true) :
    gates.error restaurantId partySize = some .restaurantNotAccepting := by
  rw [Gates.error, h, if_pos hclosed]
  rfl

theorem gate_of_open (h : subscriptionError (gates.status restaurantId) = none)
    (hopen : ¬ (!(gates.check restaurantId partySize).isOpen ||
      !(gates.check restaurantId partySize).acceptsQueue) = true) :
    gates.error restaurantId partySize = none := by
  rw [Gates.error, h, if_neg hopen]
  rfl

def quotedMinutes (gates : Gates) (metrics : ActiveQueueMetrics) (input : GetQueueEtaInput) : Nat :=
  if (gates.check input.restaurantId input.partySize).isTableAvailable && metrics.queueDepth = 0 then 0
  else gates.predictEta input.restaurantId metrics.totalPeopleAhead input.partySize

/-- How a quote ends: at a gate, at a rejected read, or with the numbers of the line. -/
inductive QuoteOutcome (gates : Gates) (input : GetQueueEtaInput) (w : World) :
    List (Event QueryCall QueryAnswer QueueError World) → Except QueueError GetQueueEtaOutput → Prop
  | gated {calls : List (Event QueryCall QueryAnswer QueueError World)} {e : QueueError}
      (hgate : gates.error input.restaurantId input.partySize = some e) :
      QuoteOutcome gates input w calls (.error e)
  | unread {calls : List (Event QueryCall QueryAnswer QueueError World)}
      (hgate : gates.error input.restaurantId input.partySize = none)
      (hread : ∃ a b, ⟨a, .getActiveQueueMetrics input.restaurantId, .error .dependency, b⟩ ∈ calls) :
      QuoteOutcome gates input w calls (.error .dependency)
  | quoted {calls : List (Event QueryCall QueryAnswer QueueError World)} {metrics : ActiveQueueMetrics}
      {t : Time} (hgate : gates.error input.restaurantId input.partySize = none)
      (hmetrics : metrics = getActiveQueueMetrics w.store input.restaurantId) :
      QuoteOutcome gates input w calls (.ok ⟨input.restaurantId, input.partySize,
        quotedMinutes gates metrics input, metrics.queueDepth, t⟩)

theorem quoteRest_traces {input : GetQueueEtaInput} {metrics : ActiveQueueMetrics}
    {x : Except QueueError GetQueueEtaOutput}
    {calls : List (Event QueryCall QueryAnswer QueueError World)}
    (h : Traces (QueryAnswers E (gates.Answers E)) (do
      if (gates.check input.restaurantId input.partySize).isTableAvailable && metrics.queueDepth = 0 then
        let calculatedAt ← askShared .now
        return ⟨input.restaurantId, input.partySize, 0, metrics.queueDepth, calculatedAt⟩
      let estimatedWaitMinutes ←
        askShared (.predictEta input.restaurantId metrics.totalPeopleAhead input.partySize)
      let calculatedAt ← askShared .now
      return ⟨input.restaurantId, input.partySize, estimatedWaitMinutes, metrics.queueDepth,
        calculatedAt⟩) w calls x w') :
    ∃ t, x = .ok ⟨input.restaurantId, input.partySize, quotedMinutes gates metrics input,
      metrics.queueDepth, t⟩ := by
  rw [quotedMinutes]
  split at h
  case isTrue hfree =>
    rw [if_pos hfree]
    obtain ⟨t, u, _, -, -, h⟩ | ⟨e, -, -, hnow⟩ := traces_call_bind h
    · cases h
      exact ⟨t, rfl⟩
    · cases (now_answers hnow.1).1
  case isFalse hfree =>
    rw [if_neg hfree]
    obtain ⟨minutes, u, _, -, heta, h⟩ | ⟨e, -, -, heta⟩ := traces_call_bind h
    · cases heta.2
      obtain ⟨t, u, _, -, -, h⟩ | ⟨e, -, -, hnow⟩ := traces_call_bind h
      · cases h
        exact ⟨t, rfl⟩
      · cases (now_answers hnow.1).1
    · cases heta.2

theorem getQueueEta_traces {input : GetQueueEtaInput} {x : Except QueueError GetQueueEtaOutput}
    {calls : List (Event QueryCall QueryAnswer QueueError World)}
    (h : Traces (QueryAnswers E (gates.Answers E)) (getQueueEta input) w calls x w') :
    QuoteOutcome gates input w calls x := by
  obtain ⟨status, u₁, post, rfl, hstatus, h⟩ | ⟨e, -, -, hstatus⟩ := traces_call_bind h
  swap
  · cases hstatus.2
  cases hstatus.2
  have hu₁ := answers_still (c := .getRestaurantStatus _) trivial hstatus.1
  obtain ⟨_, u₂, pre, post, rfl, hvalid, h⟩ | ⟨e, rfl, hvalid⟩ := traces_bind h
  swap
  · exact .gated (gate_of_invalid (validate_executes (onQuery_executes ⟨_, hvalid⟩)).2)
  obtain ⟨hsame, hvalid⟩ := validate_executes (onQuery_executes ⟨_, hvalid⟩)
  rw [hsame] at h
  obtain ⟨check, u₃, post, rfl, hcheck, h⟩ | ⟨e, -, -, hcheck⟩ := traces_call_bind h
  swap
  · cases hcheck.2
  cases hcheck.2
  have hu₂ := still_trans hu₁ (answers_still (c := .checkAvailability _ _) trivial hcheck.1)
  change Traces _ (if _ then _ else _) _ _ _ _ at h
  split at h
  case isTrue hclosed =>
    cases h
    exact .gated (gate_of_closed hvalid hclosed)
  case isFalse hopen =>
    have hgate := gate_of_open hvalid hopen
    obtain ⟨metrics, u₄, post, rfl, hmetrics, h⟩ | ⟨e, rfl, rfl, hmetrics⟩ := traces_call_bind h
    · obtain ⟨_, -, -, hrejected | hmetrics⟩ := hmetrics
      · cases hrejected
      rw [hu₂.store] at hmetrics
      obtain ⟨t, rfl⟩ := quoteRest_traces h
      exact .quoted hgate (Except.ok.inj hmetrics)
    · obtain ⟨_, -, -, hrejected | hmetrics⟩ := hmetrics
      · cases hrejected
        exact .unread hgate ⟨u₃, w', by simp⟩
      · cases hmetrics

/-- No call is rejected with one of the errors of the gates. -/
theorem answers_not_gate {c : Call} {e : QueueError} (h : E.Answers c w (.error e) w') :
    ¬ GateError e := by
  obtain ⟨t, -, hp | ⟨-, -, he, -⟩⟩ := h
  swap
  · cases he
    exact id
  have hs : written c w.store t = .error e := (performs_error hp).1
  cases c with
  | createWithHistory d changedBy =>
    obtain rfl | rfl | rfl := Store.createWithHistory_error hs <;> exact id
  | assignTablesWithHistory d tableIds assignedBy previousStatus =>
    obtain ⟨-, rfl⟩ := Store.assignTablesWithHistory_error.mp hs
    exact id
  | updateStatusWithHistory params =>
    obtain ⟨-, rfl⟩ := Store.updateStatusWithHistory_error.mp hs
    exact id
  | batchUpdatePositions us =>
    obtain ⟨-, rfl⟩ := Store.batchUpdatePositions_error.mp hs
    exact id
  | _ => cases hs

def afterGates (input : RegisterQueueInput) : UseCase Unit := do
  let existingActivePhone ← ask (.findActiveByPhone input.restaurantId input.guestPhone)
  let existingActiveUser ← findActiveUser input
  if existingActivePhone.isSome then
    throw (.activeQueueEntryExists input.guestPhone)
  if existingActiveUser.isSome then
    throw .activeUserQueueEntryExists

theorem rejects_afterGates (input : RegisterQueueInput) :
    Rejects (fun e => ¬ GateError e) (afterGates input) := by
  refine rejects_bind (rejects_call _) fun existingActivePhone => rejects_bind ?_ fun o => ?_
  · rw [findActiveUser]
    split
    · exact rejects_call _
    · exact rejects_pure _
  change Rejects _ (if _ then _ else _)
  split
  · exact rejects_throw id
  change Rejects _ (if _ then _ else _)
  split
  · exact rejects_throw id
  · exact rejects_pure _

/-- How an admission ends: at a gate, for want of a free table, or past both. -/
inductive AdmissionOutcome (gates : Gates) (input : RegisterQueueInput) :
    Except QueueError Unit → Prop
  | gated {e : QueueError} (hgate : gates.error input.restaurantId input.partySize = some e) :
      AdmissionOutcome gates input (.error e)
  | refused {e : QueueError} (hgate : gates.error input.restaurantId input.partySize = none)
      (he : ¬ GateError e) : AdmissionOutcome gates input (.error e)
  | admitted (hgate : gates.error input.restaurantId input.partySize = none)
      (hfull : (gates.check input.restaurantId input.partySize).isTableAvailable = false) :
      AdmissionOutcome gates input (.ok ())

theorem checkAdmission_executes {input : RegisterQueueInput} {x : Except QueueError Unit}
    (h : Executes (gates.Answers E) (checkAdmission input) w x w') : AdmissionOutcome gates input x := by
  obtain ⟨status, u₁, hstatus, h⟩ | ⟨e, -, hstatus⟩ := executes_call_bind h
  swap
  · cases hstatus.2
  cases hstatus.2
  obtain ⟨_, u₂, hvalid, h⟩ | ⟨e, rfl, hvalid⟩ := executes_bind h
  swap
  · exact .gated (gate_of_invalid (validate_executes hvalid).2)
  have hvalid := (validate_executes hvalid).2
  obtain ⟨check, u₃, hcheck, h⟩ | ⟨e, -, hcheck⟩ := executes_call_bind h
  swap
  · cases hcheck.2
  cases hcheck.2
  change Executes _ (if _ then _ else _) _ _ _ at h
  split at h
  case isTrue hclosed =>
    obtain ⟨rfl, -⟩ := executes_throw.mp h
    exact .gated (gate_of_closed hvalid hclosed)
  case isFalse hopen =>
    have hgate := gate_of_open hvalid hopen
    change Executes _ (if _ then _ else _) _ _ _ at h
    split at h
    case isTrue hfree =>
      obtain ⟨rfl, -⟩ := executes_throw.mp h
      exact .refused hgate id
    case isFalse hfull =>
      change Executes _ (afterGates input) _ _ _ at h
      cases x with
      | ok _ => exact .admitted hgate (Bool.eq_false_iff.mpr hfull)
      | error e =>
        exact .refused hgate
          (rejects_executes (fun hc => answers_not_gate hc.1) (rejects_afterGates input) h)

theorem registerQueue_gates {input : RegisterQueueInput} {x : Except QueueError RegisterQueueOutput}
    (h : Executes (gates.Answers E) (registerQueue input) w x w') :
    (∃ e, gates.error input.restaurantId input.partySize = some e ∧ x = .error e) ∨
      gates.error input.restaurantId input.partySize = none ∧
        (∀ e, x = .error e → ¬ GateError e) ∧ ∀ output, x = .ok output →
          (gates.check input.restaurantId input.partySize).isTableAvailable = false := by
  obtain ⟨_, u, hcheck, h⟩ | ⟨e, rfl, hcheck⟩ := executes_bind h
  · cases checkAdmission_executes hcheck with
    | admitted hgate hfull =>
      refine .inr ⟨hgate, fun e he => ?_, fun _ _ => hfull⟩
      rw [he] at h
      refine rejects_executes (W := fun e => ¬ GateError e) (fun hc => answers_not_gate hc.1) ?_ h
      refine rejects_bind (rejects_call _) fun metrics => rejects_bind (rejects_call _) fun minutes =>
        rejects_bind (rejects_call _) fun id => rejects_bind (rejects_call _) fun now =>
        rejects_bind (rejects_call _) fun persisted => rejects_bind ?_ fun _ => rejects_pure _
      exact rejects_resolves (resolves_announce _ _ _ _)
  · cases checkAdmission_executes hcheck with
    | gated hgate => exact .inl ⟨e, hgate, rfl⟩
    | refused hgate he =>
      refine .inr ⟨hgate, fun d hd => ?_, fun output hout => nomatch hout⟩
      cases hd
      exact he

/-- What a registration that went through put into the store. -/
theorem registerQueue_joins {input : RegisterQueueInput} {output : RegisterQueueOutput}
    (h : Executes (gates.Answers E) (registerQueue input) w (.ok output) w') :
    ∃ e, w'.store.entries = w.store.entries ++ [e] ∧ output = toOutputDTO e ∧
      e.position = some ((getActiveQueueMetrics w.store input.restaurantId).queueDepth + 1) ∧
      e.estimatedWaitMinutes = some (gates.predictEta input.restaurantId
        (getActiveQueueMetrics w.store input.restaurantId).totalPeopleAhead input.partySize) ∧
      e.estimatedWaitMinutesAtJoin = e.estimatedWaitMinutes := by
  obtain ⟨calls, h⟩ := h
  have hagreed := traces_answers h
  have houtcome := registerQueue_executes (traces_mono h fun _ _ hc => hc.1)
  cases houtcome with
  | @registered pre post day now minutes id metrics e u₁ u₂ u₃ u₄ u₅ v w' hpre hmetrics heta he hnow
      hfresh hphone huser hv hrest =>
    have hminutes := (hagreed ⟨u₂, .predictEta input.restaurantId metrics.totalPeopleAhead
      input.partySize, .ok minutes, u₃⟩ (by simp)).2
    refine ⟨e, ?_, rfl, ?_, ?_, ?_⟩
    · rw [(announce_calm ⟨_, hrest⟩).store, hv.store]
      rfl
    · rw [he, hmetrics]
      rfl
    · rw [he, hmetrics, Except.ok.inj hminutes, hmetrics]
      rfl
    · rw [he]
      rfl

/-- A gate turns the quote away as it turns the registration away. A ticket that
was given out shows the numbers of a quote taken on the same store. -/
theorem quote_is_ticket {input : RegisterQueueInput} {quote : Except QueueError GetQueueEtaOutput}
    {calls : List (Event QueryCall QueryAnswer QueueError World)}
    {result : Except QueueError RegisterQueueOutput}
    (hquote : Traces (QueryAnswers E (gates.Answers E))
      (getQueueEta ⟨input.restaurantId, input.partySize⟩) w calls quote u)
    (hregister : Executes (gates.Answers E) (registerQueue input) v result w') :
    (∀ e, GateError e → (quote = .error e ↔ result = .error e)) ∧
      ∀ output, v.store = w.store → result = .ok output →
        (∃ quoted e, quote = .ok quoted ∧ w'.store.entries = v.store.entries ++ [e] ∧
          output = toOutputDTO e ∧ e.estimatedWaitMinutes = some quoted.estimatedWaitMinutes ∧
          e.estimatedWaitMinutesAtJoin = some quoted.estimatedWaitMinutes ∧
          e.position = some (quoted.queueDepth + 1)) ∨
        ∃ a b, ⟨a, .getActiveQueueMetrics input.restaurantId, .error .dependency, b⟩ ∈ calls := by
  have hgates := registerQueue_gates hregister
  have hended := getQueueEta_traces hquote
  constructor
  · intro e he
    obtain ⟨d, hgate, rfl⟩ | ⟨hgate, hrejects, -⟩ := hgates
    · cases hended with
      | gated hsame =>
        cases hgate.symm.trans hsame
        exact ⟨fun h => congrArg _ (Except.error.inj h), fun h => congrArg _ (Except.error.inj h)⟩
      | unread hnone => cases hgate.symm.trans hnone
      | quoted hnone => cases hgate.symm.trans hnone
    · have hregistered : result ≠ .error e := fun h => hrejects e h he
      have hquoted : quote ≠ .error e := by
        rintro rfl
        cases hended with
        | gated hsome => cases hgate.symm.trans hsome
        | unread => exact he
      exact ⟨fun h => (hquoted h).elim, fun h => (hregistered h).elim⟩
  · rintro output hstore rfl
    obtain ⟨d, -, hd⟩ | ⟨hgate, -, hfull⟩ := hgates
    · cases hd
    obtain ⟨e, hentries, hout, hposition, heta, hjoin⟩ := registerQueue_joins hregister
    cases hended with
    | gated hsome => cases hgate.symm.trans hsome
    | unread _ hread => exact .inr hread
    | quoted _ hmetrics =>
      refine .inl ⟨_, e, rfl, hentries, hout, ?_, ?_, ?_⟩
      · rw [heta, quotedMinutes, hfull output rfl, hmetrics, hstore]
        rfl
      · rw [hjoin, heta, quotedMinutes, hfull output rfl, hmetrics, hstore]
        rfl
      · rw [hposition, hmetrics, hstore]

def smoothGates : Gates where
  status restaurantId := ⟨restaurantId, false, none, true, some QUEUE_PRO⟩
  check _ _ := ⟨true, true, false, 0⟩
  predictEta _ ahead partySize := ahead + partySize

theorem smoothGates_answers (c : Call) (w : World) :
    smoothGates.Answers smooth.env c w (smooth.reply c w).1 (smooth.reply c w).2 := by
  refine ⟨smooth.reply_answers c w, ?_⟩
  cases c <;> first | exact rfl | trivial

/-- One party waits, another asks for a quote and then joins. -/
def oneWaits : World := smooth.final (.empty 0) [walkIn "r" "1"]

def quoteForTwo := run smooth.replyQuery (getQueueEta ⟨"r", 2⟩) oneWaits

def partyOfTwo : RegisterQueueInput :=
  ⟨"r", none, some "staff", "Guest", "2", 2, none, none, none, nobody, someStaff⟩

def joinForTwo := run smooth.reply (registerQueue partyOfTwo) quoteForTwo.2.2

theorem quote_is_ticket_second : ∃ quoted e, quoteForTwo.2.1 = .ok quoted ∧
    joinForTwo.2.2.store.entries = oneWaits.store.entries ++ [e] ∧
      e.estimatedWaitMinutes = some quoted.estimatedWaitMinutes ∧
      e.estimatedWaitMinutesAtJoin = some quoted.estimatedWaitMinutes ∧
      e.position = some (quoted.queueDepth + 1) := by
  have hquote : Traces _ (getQueueEta ⟨partyOfTwo.restaurantId, partyOfTwo.partySize⟩) oneWaits
      quoteForTwo.1 quoteForTwo.2.1 quoteForTwo.2.2 :=
    run_traces (smooth.replyQuery_answers smoothGates_answers) _ _
  have hregister := run_traces smoothGates_answers (registerQueue partyOfTwo) quoteForTwo.2.2
  have hsame : quoteForTwo.2.2.store = oneWaits.store := by decide +kernel
  have hjoined : joinForTwo.2.1.toOption.isSome = true := by decide +kernel
  have hanswered : (quoteForTwo.1.all fun ev => ev.answer.toOption.isSome) = true := by decide +kernel
  obtain ⟨output, hout⟩ := Option.isSome_iff_exists.mp hjoined
  cases hresult : joinForTwo.2.1 with
  | error e => rw [hresult] at hout; cases hout
  | ok output =>
    obtain ⟨quoted, e, hq, hentries, -, hticket⟩ | ⟨a, b, hread⟩ :=
      (quote_is_ticket hquote ⟨_, hregister⟩).2 output hsame hresult
    · exact ⟨quoted, e, hq, hentries.trans (by rw [hsame]), hticket⟩
    · exact absurd (List.all_eq_true.mp hanswered _ hread) (by simp [Except.toOption])

end SpotQueue.QuotedTickets
