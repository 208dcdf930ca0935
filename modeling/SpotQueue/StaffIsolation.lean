import SpotQueue.StaffApi
import SpotQueue.Tenancy
import SpotQueue.Simulation

namespace SpotQueue.StaffIsolation

open SpotQueue.Entity SpotQueue.Repository SpotQueue.Environment SpotQueue.UseCases SpotQueue.StaffQueue
open SpotQueue.StaffApi SpotQueue.Tenancy SpotQueue.Simulation SpotQueue.Awaits.AsyncProgram

variable {E : Env} {isUuid : String → Bool} {base : Option String} {req : StaffRequest} {w w' : World}
  {op : Operation} {headers : RequestHeaders} {param : HeaderValue} {user : AuthenticatedStaff}
  {route : StaffRoute} {handler : Handler}

/-- All that the staff API relies on in the uuid check of its schemas: it lets
nothing through but hexadecimal digits and hyphens. -/
def UuidAlphabet (isUuid : String → Bool) : Prop :=
  ∀ s, isUuid s = true → UuidText s

theorem isSpace_false {c : Char} (hc : isHexDigit c = true ∨ c = '-') : isSpace c = false := by
  obtain hc | rfl := hc
  · simp only [isHexDigit, Char.isDigit, Bool.or_eq_true, Bool.and_eq_true, decide_eq_true_eq,
      Char.le_def, UInt32.le_iff_toNat_le] at hc
    simp only [isSpace, Char.isWhitespace, Bool.or_eq_false_iff, Bool.and_eq_false_iff, beq_eq_false_iff_ne,
      decide_eq_false_iff_not, ne_eq, Char.ext_iff, UInt32.ext_iff, UInt32.le_iff_toNat_le]
    simp at hc ⊢
    omega
  · rfl

theorem trim_of_spaceless {s : String} (hs : ∀ c ∈ s.toList, isSpace c = false) : trim s = s := by
  have hkeep : ∀ l : List Char, (∀ c ∈ l, isSpace c = false) → l.dropWhile isSpace = l := by
    intro l hl
    cases l with
    | nil => rfl
    | cons c l => rw [List.dropWhile_cons, hl c List.mem_cons_self, if_neg Bool.false_ne_true]
  rw [trim, hkeep _ hs, hkeep _ fun c hc => hs c (List.mem_reverse.mp hc), List.reverse_reverse,
    String.ofList_toList]

/-- What the middleware has checked when it hands a request on. -/
structure Authenticated (headers : RequestHeaders) (param : HeaderValue) (user : AuthenticatedStaff) :
    Prop where
  userId : truthy (getHeaderValue headers.userId) = some user.userId
  role : headers.normalizedRole = some "staff" ∨ headers.normalizedRole = some "admin"
  restaurant : truthy headers.trimmedRestaurantId = some user.restaurantId
  path : ∀ p ∈ truthy ((getHeaderValue param).map trim), p = user.restaurantId

theorem staffAuthMiddleware_ok (h : staffAuthMiddleware headers param = .ok user) :
    Authenticated headers param user := by
  rw [staffAuthMiddleware] at h
  split at h
  · cases h
  rename_i userId huserId
  split at h
  · cases h
  rename_i hrole
  split at h
  · cases h
  rename_i restaurantId hrestaurant
  change (if _ then _ else _) = _ at h
  split at h
  · cases h
  rename_i hpath
  cases h
  refine ⟨huserId, ?_, hrestaurant, fun p hp => ?_⟩
  · by_contra hneither
    exact hrole (not_or.mp hneither)
  · by_contra hne
    exact hpath ⟨p, hp, hne⟩

theorem validateRequestParams_ok (h : validateRequestParams isUuid route = .ok ()) :
    ∀ p ∈ route.paramRestaurantId, isUuid p = true := by
  have hissues : paramsIssues isUuid route = [] := by
    rw [validateRequestParams] at h
    split at h
    · assumption
    · cases h
  have hfield : ∀ field message value,
      uuidField isUuid field message value = [] → isUuid value = true := by
    intro field message value h
    rw [uuidField] at h
    split at h
    · assumption
    · cases h
  intro p hp
  cases route with
  | getLiveQueue | registerWalkIn =>
    cases hp
    exact hfield _ _ _ hissues
  | seatParty | skipParty | cancelQueueEntry =>
    cases hp
    exact hfield _ _ _ (List.append_eq_nil_iff.mp hissues).1
  | assignTables | ringCustomer => cases hp

theorem controller_restaurant (h : controller base user route = .ok (.operation op)) :
    op.restaurantId = route.paramRestaurantId.getD user.restaurantId := by
  cases route with
  | getLiveQueue => cases h
  | registerWalkIn =>
    change (if _ : _ then _ else _) = _ at h
    split at h
    · cases h
    · cases h
      rfl
  | _ =>
    change (if _ then _ else _) = _ at h
    split at h
    · cases h
    · cases h
      rfl

theorem router_ok (h : staffQueueRouter isUuid base req = .ok handler) :
    ∃ user, Authenticated req.headers (pathParameter req.route.paramRestaurantId) user ∧
      (∀ p ∈ req.route.paramRestaurantId, isUuid p = true) ∧
      controller base user req.route = .ok handler := by
  rw [staffQueueRouter] at h
  cases hauth : staffAuthMiddleware req.headers (pathParameter req.route.paramRestaurantId) with
  | error error =>
    rw [hauth] at h
    cases h
  | ok user =>
    cases hparams : validateRequestParams isUuid req.route with
    | error error =>
      rw [hauth, hparams] at h
      cases h
    | ok =>
      rw [hauth, hparams] at h
      exact ⟨user, staffAuthMiddleware_ok hauth, validateRequestParams_ok hparams, h⟩

theorem path_restaurant {o : Option String} (huuid : UuidAlphabet isUuid)
    (hauth : Authenticated headers (pathParameter o) user) (ho : ∀ p ∈ o, isUuid p = true) :
    ∀ p ∈ o, p = user.restaurantId := by
  rintro p rfl
  obtain ⟨hne, halphabet⟩ := huuid p (ho p rfl)
  have htrim : trim p = p := trim_of_spaceless fun c hc => isSpace_false (halphabet c hc)
  apply hauth.path p
  change truthy (some (trim p)) = some p
  rw [htrim, truthy, Option.filter_eq_some_iff]
  exact ⟨rfl, decide_eq_true hne⟩

/-- Somebody the staff API must turn away. -/
def Unentitled (req : StaffRequest) : Prop :=
  truthy (getHeaderValue req.headers.userId) = none ∨
    req.headers.normalizedRole ≠ some "staff" ∧ req.headers.normalizedRole ≠ some "admin" ∨
    truthy req.headers.trimmedRestaurantId = none ∨
    ∃ p ∈ req.route.paramRestaurantId, req.headers.trimmedRestaurantId ≠ some p

theorem router_entitled (huuid : UuidAlphabet isUuid)
    (h : staffQueueRouter isUuid base req = .ok handler) : ¬ Unentitled req := by
  obtain ⟨user, hauth, hparams, -⟩ := router_ok h
  rintro (huser | ⟨hstaff, hadmin⟩ | hrestaurant | ⟨p, hp, hne⟩)
  · rw [hauth.userId] at huser
    cases huser
  · exact hauth.role.elim hstaff hadmin
  · rw [hauth.restaurant] at hrestaurant
    cases hrestaurant
  · rw [path_restaurant huuid hauth hparams p hp] at hne
    exact hne (truthy_some hauth.restaurant).1

theorem operation_restaurant (huuid : UuidAlphabet isUuid)
    (h : staffQueueRouter isUuid base req = .ok (.operation op)) :
    req.headers.trimmedRestaurantId = some op.restaurantId := by
  obtain ⟨user, hauth, hparams, hcontrol⟩ := router_ok h
  rw [controller_restaurant hcontrol, (truthy_some hauth.restaurant).1]
  cases hparam : req.route.paramRestaurantId with
  | none => rfl
  | some p =>
    rw [hparam] at hauth hparams
    rw [path_restaurant huuid hauth hparams p rfl]
    rfl

theorem getStaffQueue_store {input : GetStaffQueueInput} {x : Except QueueError GetStaffQueueOutput}
    (h : Executes (StaffAnswers E) (getStaffQueue input) w x w') : w'.store = w.store := by
  refine executes_relates (R := fun u v => v.store = u.store) (fun _ => rfl) (fun h h' => ?_)
    (fun hc => ?_) h
  · exact Eq.trans h' h
  · obtain ⟨t, -, rfl, -⟩ := hc
    rfl

/-- A staff request changes nothing of another restaurant than that of its
header, and nothing at all if it is not entitled to anything. -/
theorem staff_request_isolated (huuid : UuidAlphabet isUuid) (h : Serves E isUuid base req w w') :
    (∀ r ∈ req.headers.trimmedRestaurantId, Isolated r w.store w'.store) ∧
      (Unentitled req → w'.store = w.store) := by
  cases h with
  | refused hrouter => exact ⟨fun _ _ => isolated_refl _, fun _ => rfl⟩
  | queried hrouter h =>
    have hstore := getStaffQueue_store h
    exact ⟨fun _ _ => hstore ▸ isolated_refl _, fun _ => hstore⟩
  | operated hrouter h =>
    refine ⟨fun r hr => ?_, fun hun => (router_entitled huuid hrouter hun).elim⟩
    rw [operation_restaurant huuid hrouter] at hr
    cases hr
    exact execute_isolated h

/-- One position of a uuid: a hyphen, the version, the variant or any digit. -/
def fits (p c : Char) : Bool :=
  if p = '-' then c == '-'
  else isHexDigit c && (p != 'V' || ('1' ≤ c && c ≤ '8')) &&
    (p != 'R' || ['8', '9', 'a', 'b', 'A', 'B'].contains c)

def fitsAll : List Char → List Char → Bool
  | [], [] => true
  | p :: ps, c :: cs => fits p c && fitsAll ps cs
  | _, _ => false

/-- A uuid of one of the eight versions, the nil or the max uuid. -/
def versionedUuid (s : String) : Bool :=
  fitsAll "hhhhhhhh-hhhh-Vhhh-Rhhh-hhhhhhhhhhhh".toList s.toList ||
    s == "00000000-0000-0000-0000-000000000000" || s == "ffffffff-ffff-ffff-ffff-ffffffffffff"

theorem fitsAll_alphabet {ps cs : List Char} (h : fitsAll ps cs = true) :
    ∀ c ∈ cs, isHexDigit c = true ∨ c = '-' := by
  induction ps generalizing cs with
  | nil =>
    cases cs with
    | nil => exact List.forall_mem_nil _
    | cons c cs => cases h
  | cons p ps ih =>
    cases cs with
    | nil => exact List.forall_mem_nil _
    | cons c cs =>
      obtain ⟨hc, hcs⟩ := (Bool.and_eq_true _ _).mp h
      refine List.forall_mem_cons.mpr ⟨?_, ih hcs⟩
      rw [fits] at hc
      split at hc
      · exact .inr (beq_iff_eq.mp hc)
      · simp only [Bool.and_eq_true] at hc
        exact .inl hc.1.1

theorem versionedUuid_alphabet : UuidAlphabet versionedUuid := by
  intro s hs
  simp only [versionedUuid, Bool.or_eq_true, beq_iff_eq] at hs
  obtain (hs | rfl) | rfl := hs
  · refine ⟨?_, fitsAll_alphabet hs⟩
    rintro rfl
    revert hs
    decide
  · decide
  · decide

def RESTAURANT_A : String := "a1111111-1111-4111-8111-111111111111"

def RESTAURANT_B : String := "b2222222-2222-4222-8222-222222222222"

def TICKET_A : String := "c3333333-3333-4333-8333-333333333333"

def TICKET_B : String := "d4444444-4444-4444-8444-444444444444"

def waitingAt (restaurantId id : String) : QueueEntry :=
  create ⟨restaurantId, none, "Guest", "+15559876543", "W-001", 2, none, .walkIn, 1, 10, none⟩
    (.ofText id) 0

def twoRestaurants : World :=
  { World.empty 0 with
    store := ⟨[waitingAt RESTAURANT_A TICKET_A, waitingAt RESTAURANT_B TICKET_B], [], [], by decide⟩ }

/-- Restaurant A cancels its own ticket. -/
def cancelling : StaffRequest where
  headers := ⟨.single "staff", .single "STAFF", .undefined, .single RESTAURANT_A⟩
  route := .cancelQueueEntry RESTAURANT_A TICKET_A ⟨.walkOut, none⟩

def cancelled : World :=
  (run smooth.reply
    (Operation.cancelQueueEntry ⟨RESTAURANT_A, TICKET_A, "staff", "WALK_OUT", none⟩).execute
    twoRestaurants).2.2

theorem staff_request_isolated_cancelling :
    Isolated RESTAURANT_A twoRestaurants.store cancelled.store := by
  have hserves : Serves smooth.env versionedUuid none cancelling twoRestaurants cancelled :=
    .operated rfl (smooth.run_executes
      (Operation.cancelQueueEntry ⟨RESTAURANT_A, TICKET_A, "staff", "WALK_OUT", none⟩).execute _)
  exact (staff_request_isolated versionedUuid_alphabet hserves).1 RESTAURANT_A (by decide)

end SpotQueue.StaffIsolation
