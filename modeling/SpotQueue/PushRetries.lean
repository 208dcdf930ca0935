import SpotQueue.PushService

namespace SpotQueue.PushRetries

open SpotQueue.Entity SpotQueue.PushService SpotQueue.Awaits.AsyncProgram

variable {config : FirebaseConfig} {payload : PushNotificationPayload} {message : Message}
  {outcomes : Outcomes} {α : Type}

inductive SendKind
  | delivered | invalidToken | permanent | transient
deriving DecidableEq

/-- How the service sorts the outcomes of a send. -/
def sendKind : Except ThrownError String → SendKind
  | .ok _ => .delivered
  | .error err =>
    if err.errorCode ∈ INVALID_TOKEN_ERROR_CODES then .invalidToken
    else if err.errorCode ∈ PERMANENT_CLIENT_ERROR_CODES then .permanent
    else .transient

/-- What the service makes of the last send. -/
def sendResult : Except ThrownError String → PushNotificationResult
  | .ok messageId => sent messageId
  | .error err => failed err.errorMessage (decide (err.errorCode ∈ INVALID_TOKEN_ERROR_CODES))

theorem sends_run (outcomes : Outcomes) (p : Push α) (n : Nat) :
    ∃ m, (run (reply outcomes) p n).2.2 = n + m ∧
    sends (run (reply outcomes) p n).1 = (List.range' n m).map outcomes := by
  induction p generalizing n with
  | done a => exact ⟨0, rfl, rfl⟩
  | reject e => exact ⟨0, rfl, rfl⟩
  | await c k ih =>
    cases c with
    | send message =>
      obtain ⟨m, hend, hsends⟩ := ih (outcomes n) (n + 1)
      refine ⟨m + 1, by rw [Nat.add_comm m 1, ← Nat.add_assoc]; exact hend, ?_⟩
      rw [List.range'_succ, List.map_cons, ← hsends]
      rfl
    | sleep ms => exact ih (.ok ()) n

theorem run_tried_send (f : Except ThrownError String → Push α) (n : Nat) :
    (run (reply outcomes) (tried (.send message) >>= f) n).2 =
      (run (reply outcomes) (f (outcomes n)) (n + 1)).2 := by
  change (run (reply outcomes) (tryCatch (Except.ok <$> settle (outcomes n)) _ >>= f) (n + 1)).2 = _
  cases outcomes n <;> rfl

/-- One round of the loop: another round follows a transient failure, if one is left. -/
theorem sendLoop_round {fuel attempt : Nat} (hattempt : attempt ≤ config.maxRetries) (n : Nat) :
    (run (reply outcomes) (sendLoop config message (fuel + 1) attempt) n).2 =
      if sendKind (outcomes n) = .transient ∧ attempt + 1 ≤ config.maxRetries then
        (run (reply outcomes) (sendLoop config message fuel (attempt + 1)) (n + 1)).2
      else (.ok (sendResult (outcomes n)), n + 1) := by
  rw [sendLoop, if_pos hattempt]
  apply (run_tried_send _ n).trans
  cases outcomes n with
  | ok messageId => rfl
  | error err =>
    by_cases hinvalid : err.errorCode ∈ INVALID_TOKEN_ERROR_CODES
    · simp only [sendKind, sendResult, hinvalid, if_true, decide_true]
      rfl
    by_cases hpermanent : err.errorCode ∈ PERMANENT_CLIENT_ERROR_CODES
    · simp only [sendKind, sendResult, hinvalid, hpermanent, if_true, if_false, decide_false]
      rfl
    simp only [sendKind, sendResult, hinvalid, hpermanent, if_false, decide_false, true_and]
    split <;> rfl

/-- The loop sends until an outcome is final or its rounds are over. -/
theorem sendLoop_run (outcomes : Outcomes) (message : Message) {fuel attempt : Nat}
    (hattempt : attempt ≤ config.maxRetries)
    (hfuel : config.maxRetries < attempt + fuel) (n : Nat) :
    ∃ c, attempt + c ≤ config.maxRetries ∧ (∀ j < c, sendKind (outcomes (n + j)) = .transient) ∧
      (sendKind (outcomes (n + c)) = .transient → attempt + c = config.maxRetries) ∧
      (run (reply outcomes) (sendLoop config message fuel attempt) n).2 =
        (.ok (sendResult (outcomes (n + c))), n + c + 1) := by
  induction fuel generalizing attempt n with
  | zero => omega
  | succ fuel ih =>
    rw [sendLoop_round hattempt]
    split
    · rename_i hagain
      obtain ⟨c, hc, hbefore, hlast, hrun⟩ := ih hagain.2 (by omega) (n + 1)
      have hshift : ∀ j, n + 1 + j = n + (j + 1) := by omega
      simp only [hshift] at hbefore hlast hrun
      refine ⟨c + 1, by omega, fun j hj => ?_, fun h => (Nat.add_right_comm _ c 1 ▸ hlast h), hrun⟩
      cases j with
      | zero => exact hagain.1
      | succ j => exact hbefore j (by omega)
    · rename_i hover
      refine ⟨0, hattempt, nofun, fun h => ?_, rfl⟩
      have hmore : ¬ attempt + 1 ≤ config.maxRetries := fun hle => hover ⟨h, hle⟩
      omega

/-- One attempt of the worker from the n-th send on: what it sends, and whether it throws. -/
theorem processJob_run (outcomes : Outcomes) (hconfigured : config.configured = true)
    (hfid : payload.fid ≠ "") (n : Nat) :
    ∃ c ≤ config.maxRetries, (∀ j < c, sendKind (outcomes (n + j)) = .transient) ∧
      (sendKind (outcomes (n + c)) = .transient → c = config.maxRetries) ∧
      ∃ x, (run (reply outcomes) (processJob config payload) n).2 = (x, n + c + 1) ∧
        ((∃ result, x = .ok result) ↔ sendKind (outcomes (n + c)) = .delivered ∨
          sendKind (outcomes (n + c)) = .invalidToken) := by
  obtain ⟨c, hc, hbefore, hlast, hrun⟩ := sendLoop_run outcomes (toMessage payload)
    (Nat.zero_le config.maxRetries) (show config.maxRetries < 0 + (config.maxRetries + 2) by omega) n
  rw [Nat.zero_add] at hc hlast
  refine ⟨c, hc, hbefore, hlast, ?_⟩
  rw [processJob, run_bind, send, if_neg (by simp [hconfigured]), if_neg hfid, hrun]
  generalize outcomes (n + c) = x
  cases x with
  | ok messageId => exact ⟨_, rfl, by simp [sendKind]⟩
  | error err =>
    by_cases hinvalid : err.errorCode ∈ INVALID_TOKEN_ERROR_CODES
    · refine ⟨.ok (sendResult (.error err)), ?_, by simp [sendKind, hinvalid]⟩
      simp only [sendResult, hinvalid, decide_true]
      rfl
    · refine ⟨.error ⟨none, some ((truthy (some err.errorMessage)).getD
        "Push notification dispatch failed"), ""⟩, ?_, ?_⟩
      · simp only [sendResult, hinvalid, decide_false]
        rfl
      · simp only [sendKind, hinvalid, if_false]
        split <;> simp

/-- How many sends have been made when the job is over, if n were made before it. -/
def jobEnd (config : FirebaseConfig) (payload : PushNotificationPayload) (outcomes : Outcomes)
    (attempts n : Nat) : Nat :=
  (run (reply outcomes) (runJob config payload attempts) n).2.2

theorem jobEnd_succ (hconfigured : config.configured = true) (hfid : payload.fid ≠ "")
    (outcomes : Outcomes) (attempts n : Nat) :
    ∃ c ≤ config.maxRetries, (∀ j < c, sendKind (outcomes (n + j)) = .transient) ∧
      (sendKind (outcomes (n + c)) = .transient → c = config.maxRetries) ∧
      jobEnd config payload outcomes (attempts + 1) n =
        if sendKind (outcomes (n + c)) = .delivered ∨ sendKind (outcomes (n + c)) = .invalidToken then
          n + c + 1
        else jobEnd config payload outcomes attempts (n + c + 1) := by
  obtain ⟨c, hc, hbefore, hlast, x, hrun, hresult⟩ := processJob_run outcomes hconfigured hfid n
  refine ⟨c, hc, hbefore, hlast, ?_⟩
  rw [jobEnd, runJob, run_attempt, run_map, hrun]
  cases x with
  | ok result =>
    rw [if_pos (hresult.mp ⟨result, rfl⟩)]
    rfl
  | error err =>
    rw [if_neg fun h => by obtain ⟨result, h⟩ := hresult.mpr h; cases h]
    rfl

theorem jobEnd_bounds (hconfigured : config.configured = true) (hfid : payload.fid ≠ "")
    (outcomes : Outcomes) (attempts n : Nat) :
    n + min attempts 1 ≤ jobEnd config payload outcomes attempts n ∧
      jobEnd config payload outcomes attempts n ≤ n + attempts * (config.maxRetries + 1) := by
  induction attempts generalizing n with
  | zero => exact ⟨Nat.le_refl n, Nat.le_add_right n _⟩
  | succ attempts ih =>
    obtain ⟨c, hc, -, -, hend⟩ := jobEnd_succ hconfigured hfid outcomes attempts n
    have hnext := ih (n + c + 1)
    rw [hend, Nat.add_mul]
    split <;> omega

/-- Only a failure is followed by another send, and never that of an invalid token. -/
theorem jobEnd_before (hconfigured : config.configured = true) (hfid : payload.fid ≠ "")
    (outcomes : Outcomes) (attempts : Nat) {n k : Nat}
    (hk : n + k + 1 < jobEnd config payload outcomes attempts n) :
    sendKind (outcomes (n + k)) = .transient ∨ sendKind (outcomes (n + k)) = .permanent := by
  induction attempts generalizing n k with
  | zero => exact absurd hk (by show ¬ n + k + 1 < n; omega)
  | succ attempts ih =>
    obtain ⟨c, -, hbefore, -, hend⟩ := jobEnd_succ hconfigured hfid outcomes attempts n
    obtain hkc | rfl | hkc := Nat.lt_trichotomy k c
    · exact .inl (hbefore k hkc)
    · rw [hend] at hk
      split at hk
      · omega
      · rename_i hfailed
        generalize sendKind (outcomes (n + k)) = kind at hfailed
        cases kind <;> simp_all
    · rw [hend] at hk
      split at hk
      · omega
      · obtain ⟨i, rfl⟩ := Nat.exists_eq_add_of_lt hkc
        have hshift : n + (c + i + 1) = n + c + 1 + i := by omega
        rw [hshift] at hk ⊢
        exact ih hk

/-- The first outcome that is no transient failure is a permanent one, and comes
before the last attempt could have been reached. -/
def PermanentEarly (config : FirebaseConfig) (attempts : Nat) (outcomes : Outcomes) (n : Nat) : Prop :=
  ∃ k < (attempts - 1) * (config.maxRetries + 1),
    (∀ j < k, sendKind (outcomes (n + j)) = .transient) ∧ sendKind (outcomes (n + k)) = .permanent

theorem permanent_later {n rounds k : Nat}
    (htransient : ∀ j ≤ rounds, sendKind (outcomes (n + j)) = .transient)
    (hpermanent : sendKind (outcomes (n + k)) = .permanent) :
    ∃ i, k = rounds + 1 + i ∧ sendKind (outcomes (n + rounds + 1 + i)) = .permanent := by
  have hlater : rounds < k := by
    by_contra hle
    rw [htransient k (by omega)] at hpermanent
    cases hpermanent
  obtain ⟨i, rfl⟩ := Nat.exists_eq_add_of_le hlater
  exact ⟨i, rfl, by rw [← hpermanent]; congr 2; omega⟩

theorem permanentEarly_succ {n attempts : Nat}
    (htransient : ∀ j ≤ config.maxRetries, sendKind (outcomes (n + j)) = .transient) :
    PermanentEarly config (attempts + 1) outcomes n ↔
      PermanentEarly config attempts outcomes (n + config.maxRetries + 1) := by
  have hshift : ∀ i, n + (config.maxRetries + 1 + i) = n + config.maxRetries + 1 + i := by omega
  rw [PermanentEarly, PermanentEarly, Nat.add_sub_cancel, Nat.sub_mul, Nat.one_mul]
  constructor
  · rintro ⟨k, hk, hfirst, hpermanent⟩
    obtain ⟨i, rfl, hlater⟩ := permanent_later htransient hpermanent
    refine ⟨i, by omega, fun j hj => ?_, hlater⟩
    rw [← hshift]
    exact hfirst _ (by omega)
  · rintro ⟨i, hi, hfirst, hpermanent⟩
    refine ⟨config.maxRetries + 1 + i, by omega, fun j hj => ?_,
      (congrArg (sendKind ∘ outcomes) (hshift i)).trans hpermanent⟩
    obtain hle | hlt := Nat.lt_or_ge config.maxRetries j
    · obtain ⟨j, rfl⟩ := Nat.exists_eq_add_of_le hle
      rw [hshift]
      exact hfirst j (by omega)
    · exact htransient j hlt

/-- A send that failed for good is followed by another just if it comes before
the last attempt. -/
theorem jobEnd_permanent (hconfigured : config.configured = true) (hfid : payload.fid ≠ "")
    (outcomes : Outcomes) (attempts n : Nat) :
    (∃ k, n + k + 1 < jobEnd config payload outcomes attempts n ∧
      sendKind (outcomes (n + k)) = .permanent) ↔ PermanentEarly config attempts outcomes n := by
  induction attempts generalizing n with
  | zero =>
    constructor
    · rintro ⟨k, hk, -⟩
      exact absurd hk (by show ¬ n + k + 1 < n; omega)
    · rintro ⟨k, hk, -⟩
      exact absurd hk (by simp)
  | succ attempts ih =>
    obtain ⟨c, hc, hbefore, hlast, hend⟩ := jobEnd_succ hconfigured hfid outcomes attempts n
    rw [hend, PermanentEarly, Nat.add_sub_cancel]
    have hnone : ∀ k < c, sendKind (outcomes (n + k)) ≠ .permanent := fun k hk => by
      rw [hbefore k hk]
      decide
    have hfirst : ∀ k, (∀ j < k, sendKind (outcomes (n + j)) = .transient) →
        sendKind (outcomes (n + c)) ≠ .transient → k ≤ c := fun k hk hfinal =>
      Nat.le_of_not_lt fun hck => hfinal (hk c hck)
    cases hkind : sendKind (outcomes (n + c)) with
    | delivered | invalidToken =>
      rw [if_pos (by simp)]
      constructor
      · rintro ⟨k, hk, hpermanent⟩
        exact (hnone k (by omega) hpermanent).elim
      · rintro ⟨k, -, hk, hpermanent⟩
        obtain hlt | rfl := Nat.lt_or_eq_of_le (hfirst k hk (by rw [hkind]; decide))
        · exact (hnone k hlt hpermanent).elim
        · rw [hkind] at hpermanent
          cases hpermanent
    | permanent =>
      rw [if_neg (by simp)]
      have hbounds := jobEnd_bounds hconfigured hfid outcomes attempts (n + c + 1)
      constructor
      · rintro ⟨k, hk, hpermanent⟩
        refine ⟨c, ?_, hbefore, hkind⟩
        cases attempts with
        | zero => exact (hnone k (by change n + k + 1 < n + c + 1 at hk; omega) hpermanent).elim
        | succ attempts =>
          rw [Nat.add_mul]
          omega
      · rintro ⟨k, hk, -, -⟩
        cases attempts with
        | zero => exact absurd hk (by simp)
        | succ attempts => exact ⟨c, by omega, hkind⟩
    | transient =>
      obtain rfl := hlast hkind
      rw [if_neg (by simp)]
      have htransient : ∀ j ≤ config.maxRetries, sendKind (outcomes (n + j)) = .transient :=
        fun j hj => (Nat.lt_or_eq_of_le hj).elim (hbefore j) fun h => h ▸ hkind
      change _ ↔ PermanentEarly config (attempts + 1) outcomes n
      rw [permanentEarly_succ htransient, ← ih]
      constructor
      · rintro ⟨k, hk, hpermanent⟩
        obtain ⟨i, rfl, hlater⟩ := permanent_later htransient hpermanent
        exact ⟨i, by omega, hlater⟩
      · rintro ⟨i, hi, hpermanent⟩
        refine ⟨config.maxRetries + 1 + i, by omega, ?_⟩
        rw [← Nat.add_assoc, ← Nat.add_assoc]
        exact hpermanent

/-- What is asked of the sends of one job. -/
structure WellSent (attempts maxRetries : Nat) (sends : List (Except ThrownError String)) : Prop where
  once : sends.countP (sendKind · = .delivered) ≤ 1
  bounded : sends.length ≤ attempts * (maxRetries + 1)
  final : ∀ before err after, sends = before ++ .error err :: after →
    err.errorCode ∈ INVALID_TOKEN_ERROR_CODES ∨ err.errorCode ∈ PERMANENT_CLIENT_ERROR_CODES →
    after = []

/-- The job has a client to send through and a device to send to. -/
def Sends (config : FirebaseConfig) (payload : PushNotificationPayload) : Prop :=
  config.configured = true ∧ payload.fid ≠ ""

theorem jobSends_eq (options : JobOptions) :
    jobSends config payload options outcomes =
      (List.range (jobEnd config payload outcomes options.attempts 0)).map outcomes := by
  obtain ⟨m, hend, hsends⟩ := sends_run outcomes (runJob config payload options.attempts) 0
  rw [jobSends, hsends, jobEnd, hend, Nat.zero_add, List.range_eq_range']

/-- A job that has nothing to send, or nothing to send it through, makes no send. -/
theorem jobEnd_silent (hsilent : ¬ Sends config payload) (attempts n : Nat) :
    jobEnd config payload outcomes attempts n = n := by
  induction attempts with
  | zero => rfl
  | succ attempts ih =>
    rw [jobEnd, runJob, run_attempt, run_map, processJob, run_bind, send]
    cases hconfigured : config.configured with
    | false => rfl
    | true =>
      have hfid : payload.fid = "" := by
        by_contra hfid
        exact hsilent ⟨hconfigured, hfid⟩
      rw [if_neg (by simp), if_pos hfid]
      rfl

theorem range_split_at {m : Nat} {x : Except ThrownError String} {before after}
    (hsplit : (List.range m).map outcomes = before ++ x :: after) :
    outcomes before.length = x ∧ m = before.length + 1 + after.length := by
  have hlength := congrArg List.length hsplit
  have hat := congrArg (·[before.length]?) hsplit
  simp only [List.length_map, List.length_range, List.length_append, List.length_cons] at hlength
  simp only [List.getElem?_map, List.getElem?_append_right (Nat.le_refl _), Nat.sub_self,
    List.getElem?_cons_zero, List.getElem?_range (show before.length < m by omega)] at hat
  exact ⟨Option.some.inj hat, by omega⟩

theorem range_split (outcomes : Outcomes) {k m : Nat} (hk : k + 1 < m) :
    ∃ after ≠ [], (List.range m).map outcomes =
      (List.range k).map outcomes ++ outcomes k :: after := by
  obtain ⟨i, rfl⟩ := Nat.exists_eq_add_of_lt hk
  refine ⟨(List.range' (k + 1) (i + 1)).map outcomes, by simp, ?_⟩
  have happend := List.range'_append_1 (s := 0) (m := k) (n := i + 1 + 1)
  rw [Nat.zero_add] at happend
  rw [← List.map_cons, ← List.range'_succ, ← List.map_append, List.range_eq_range',
    List.range_eq_range', happend]
  congr 2
  omega

theorem sendKind_final {err : ThrownError}
    (hfinal : err.errorCode ∈ INVALID_TOKEN_ERROR_CODES ∨
      err.errorCode ∈ PERMANENT_CLIENT_ERROR_CODES) : sendKind (.error err) ≠ .transient := by
  rw [sendKind]
  split
  · decide
  · rename_i hinvalid
    rw [if_pos (hfinal.resolve_left hinvalid)]
    decide

theorem permanent_failed {x : Except ThrownError String} (hpermanent : sendKind x = .permanent) :
    ∃ err, x = .error err ∧ err.errorCode ∈ PERMANENT_CLIENT_ERROR_CODES := by
  cases x with
  | ok messageId => cases hpermanent
  | error err =>
    refine ⟨err, rfl, ?_⟩
    by_contra hother
    rw [sendKind] at hpermanent
    split at hpermanent <;> cases hpermanent

theorem jobSends_once (hconfigured : config.configured = true) (hfid : payload.fid ≠ "")
    (options : JobOptions) :
    (jobSends config payload options outcomes).countP (sendKind · = .delivered) ≤ 1 := by
  rw [jobSends_eq]
  have hbefore := fun k => jobEnd_before hconfigured hfid outcomes options.attempts (n := 0) (k := k)
  cases hend : jobEnd config payload outcomes options.attempts 0 with
  | zero => simp
  | succ m =>
    have hfailed : ((List.range m).map outcomes).countP (sendKind · = .delivered) = 0 := by
      simp only [List.countP_eq_zero, List.forall_mem_map, List.mem_range, decide_eq_true_eq]
      intro k hk
      have hkind := hbefore k (by omega)
      rw [Nat.zero_add] at hkind
      obtain h | h := hkind <;> rw [h] <;> decide
    rw [List.range_succ, List.map_append, List.countP_append, hfailed, Nat.zero_add]
    exact List.countP_le_length

theorem jobSends_final (hconfigured : config.configured = true) (hfid : payload.fid ≠ "")
    (options : JobOptions) :
    (∀ before err after, jobSends config payload options outcomes = before ++ .error err :: after →
      err.errorCode ∈ INVALID_TOKEN_ERROR_CODES ∨ err.errorCode ∈ PERMANENT_CLIENT_ERROR_CODES →
      after = []) ↔ ¬ PermanentEarly config options.attempts outcomes 0 := by
  rw [jobSends_eq, ← jobEnd_permanent hconfigured hfid]
  simp only [Nat.zero_add]
  constructor
  · rintro hlast ⟨k, hk, hpermanent⟩
    obtain ⟨after, hafter, hsplit⟩ := range_split outcomes hk
    obtain ⟨err, herr, hcode⟩ := permanent_failed hpermanent
    exact hafter (hlast _ err after (herr ▸ hsplit) (.inr hcode))
  · intro hnone before err after hsplit hfinal
    obtain ⟨hat, hlength⟩ := range_split_at hsplit
    by_contra hafter
    have hmore : before.length + 1 < jobEnd config payload outcomes options.attempts 0 := by
      have := List.length_pos_iff.mpr hafter
      omega
    have hkind := jobEnd_before hconfigured hfid outcomes options.attempts
      (n := 0) (k := before.length) (by omega)
    rw [Nat.zero_add, hat] at hkind
    exact hnone ⟨_, hmore, hat ▸ hkind.resolve_left (sendKind_final hfinal)⟩

/-- Over both retry loops a push is sent as it should be, unless a failure that
cannot be cured is handed back to the queue. -/
theorem jobSends_wellSent_iff (config : FirebaseConfig) (payload : PushNotificationPayload)
    (options : JobOptions) (outcomes : Outcomes) :
    WellSent options.attempts config.maxRetries (jobSends config payload options outcomes) ↔
      (Sends config payload → ¬ PermanentEarly config options.attempts outcomes 0) := by
  by_cases hsends : Sends config payload
  · obtain ⟨hconfigured, hfid⟩ := hsends
    rw [← jobSends_final hconfigured hfid]
    have hbounds := (jobEnd_bounds hconfigured hfid outcomes options.attempts 0).2
    exact ⟨fun h _ => h.final, fun h => ⟨jobSends_once hconfigured hfid options,
      by simpa [jobSends_eq] using hbounds, h ⟨hconfigured, hfid⟩⟩⟩
  · refine ⟨fun _ h => absurd h hsends, fun _ => ?_⟩
    rw [jobSends_eq, jobEnd_silent hsends]
    exact ⟨by simp, by simp, by simp⟩

def tooLarge : ThrownError :=
  ⟨some "messaging/payload-size-limit-exceeded", some "Message too big", "Error: Message too big"⟩

/-- A payload that is too large is sent once in every attempt. -/
theorem too_large_sent_again :
    let sends := jobSends ⟨true, 2, 1000⟩ ⟨"fid-1", "Table ready", "Please come", fun _ => none, none⟩
      PUSH_NOTIFICATION_JOB_OPTIONS (fun _ => .error tooLarge)
    sends = [.error tooLarge, .error tooLarge, .error tooLarge] ∧
      ¬ WellSent PUSH_NOTIFICATION_JOB_OPTIONS.attempts 2 sends := by
  have hsends : jobSends ⟨true, 2, 1000⟩
      ⟨"fid-1", "Table ready", "Please come", fun _ => none, none⟩
      PUSH_NOTIFICATION_JOB_OPTIONS (fun _ => .error tooLarge) =
      [.error tooLarge, .error tooLarge, .error tooLarge] := by decide
  refine ⟨hsends, fun h => ?_⟩
  exact absurd (h.final [] tooLarge _ hsends (.inr (by decide))) (by simp)

end SpotQueue.PushRetries
