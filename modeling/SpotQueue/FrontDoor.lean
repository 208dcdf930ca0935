import SpotQueue.CanonicalBodies
import SpotQueue.DurableRows
import SpotQueue.HttpApi
import SpotQueue.Requests

namespace SpotQueue.FrontDoor

open SpotQueue.Entity SpotQueue.Repository SpotQueue.Environment SpotQueue.UseCases SpotQueue.Guards
open SpotQueue.StaffApi SpotQueue.TableBodies SpotQueue.GuestBodies SpotQueue.CanonicalBodies
open SpotQueue.HttpApi SpotQueue.StaffIsolation SpotQueue.Line SpotQueue.Stewardship
open SpotQueue.DurableRows SpotQueue.Requests
open SpotQueue.Awaits.AsyncProgram SpotQueue.Awaits.AsyncProtocol SpotQueue.Awaits.LabelledRun
open SpotQueue.Awaits.AsyncPool

/-- The path spells the identifier out, escaped or not. -/
def Names (platform : Platform) (req : HttpRequest) (id : String) : Prop :=
  ∃ segment ∈ req.path, platform.decodeURIComponent segment = some id

section routes

variable {platform : Platform} {req : HttpRequest} {β : Type} {routes : List (Route β)}
  {method : HttpMethod} {path : List String}

theorem matchPath_mem {parts : List PathPart} {params : List String}
    (h : matchPath parts path = some params) : ∀ p ∈ params, p ∈ path := by
  fun_induction matchPath parts path generalizing params with
  | case1 =>
    cases h
    exact fun p hp => hp
  | case2 parts segment path ih => exact fun p hp => List.mem_cons_of_mem _ (ih h p hp)
  | case3 | case4 | case6 => cases h
  | case5 parts segment path _ ih =>
    obtain ⟨rest, hrest, rfl⟩ := Option.map_eq_some_iff.mp h
    intro p hp
    obtain rfl | hp := List.mem_cons.mp hp
    · exact List.mem_cons_self
    · exact List.mem_cons_of_mem _ (ih hrest p hp)

theorem underBase_mem {base rest : List String} (h : underBase base path = some rest) :
    ∀ segment ∈ rest, segment ∈ path := by
  fun_induction underBase base path with
  | case1 =>
    cases h
    exact fun segment hsegment => hsegment
  | case2 base segment path ih =>
    exact fun segment hsegment => List.mem_cons_of_mem _ (ih h segment hsegment)
  | case3 | case4 => cases h

theorem mapM_mem {γ δ : Type} {f : γ → Option δ} {l : List γ} {m : List δ} (h : l.mapM f = some m) :
    ∀ b ∈ m, ∃ a ∈ l, f a = some b := by
  induction l generalizing m with
  | nil =>
    cases h
    exact fun b hb => absurd hb List.not_mem_nil
  | cons a l ih =>
    rw [List.mapM_cons] at h
    obtain ⟨b, hb, h⟩ := Option.bind_eq_some_iff.mp h
    obtain ⟨bs, hbs, h⟩ := Option.bind_eq_some_iff.mp h
    cases h
    intro b' hb'
    obtain rfl | hb' := List.mem_cons.mp hb'
    · exact ⟨a, List.mem_cons_self, hb⟩
    · obtain ⟨a', ha', hf⟩ := ih hbs b' hb'
      exact ⟨a', List.mem_cons_of_mem _ ha', hf⟩

theorem findRoute_target {t : β} (h : findRoute platform routes method path = some (.target t)) :
    ∃ route ∈ routes, ∃ params, route.target params = some t ∧
      ∀ p ∈ params, ∃ segment ∈ path, platform.decodeURIComponent segment = some p := by
  obtain ⟨route, hroute, h⟩ := List.exists_of_findSome?_eq_some h
  obtain ⟨raw, hraw, h⟩ := Option.bind_eq_some_iff.mp h
  split at h
  · cases h
  rename_i params hparams
  obtain ⟨t', ht, htarget⟩ := Option.map_eq_some_iff.mp h
  cases htarget
  rw [Route.params] at hraw
  split at hraw
  · refine ⟨route, hroute, params, ht, fun p hp => ?_⟩
    obtain ⟨segment, hsegment, hdecode⟩ := mapM_mem hparams p hp
    exact ⟨segment, matchPath_mem hraw segment hsegment, hdecode⟩
  · cases hraw

theorem mounted_target {base : List String} {f : β → Target} {target : Target}
    (h : mounted platform req base routes f = some (.target target)) :
    ∃ t, target = f t ∧ ∃ route ∈ routes, ∃ params, route.target params = some t ∧
      ∀ p ∈ params, Names platform req p := by
  obtain ⟨found, hfound, hmap⟩ := Option.map_eq_some_iff.mp h
  obtain ⟨rest, hrest, hroute⟩ := Option.bind_eq_some_iff.mp hfound
  cases found with
  | malformed => cases hmap
  | target t =>
    cases hmap
    obtain ⟨route, hroute, params, ht, hparams⟩ := findRoute_target hroute
    refine ⟨t, rfl, route, hroute, params, ht, fun p hp => ?_⟩
    obtain ⟨segment, hsegment, hdecode⟩ := hparams p hp
    exact ⟨segment, underBase_mem hrest segment hsegment, hdecode⟩

theorem ofOne_some {target : String → β} {params : List String} {t : β}
    (h : ofOne target params = some t) : ∃ a ∈ params, t = target a := by
  unfold ofOne at h
  split at h
  · exact ⟨_, List.mem_cons_self, (Option.some.inj h).symm⟩
  · cases h

theorem ofTwo_some {target : String → String → β} {params : List String} {t : β}
    (h : ofTwo target params = some t) : ∃ a ∈ params, ∃ b ∈ params, t = target a b := by
  unfold ofTwo at h
  split at h
  · exact ⟨_, List.mem_cons_self, _, List.mem_cons_of_mem _ List.mem_cons_self,
      (Option.some.inj h).symm⟩
  · cases h

end routes

section reached

variable {platform : Platform} {req : HttpRequest}

/-- Whom the router lets through to a target, and what the path names of it. -/
def Reached (platform : Platform) (req : HttpRequest) : Target → Prop
  | .staff target => ∀ restaurantId ∈ target.paramRestaurantId, Names platform req restaurantId
  | .customer target => Names platform req target.restaurantId
  | .internal (.getActiveQueueByUser _ userId) | .internal (.getCustomerQueueStatus userId) =>
    platform.s2sAuth req = none ∧ Names platform req userId
  | _ => True

theorem staff_reached {base : List String} {target : Target}
    (h : mounted platform req base staffQueueRoutes .staff = some (.target target)) :
    Reached platform req target := by
  obtain ⟨t, rfl, route, hroute, params, ht, hparams⟩ := mounted_target h
  simp only [staffQueueRoutes, List.mem_cons, List.not_mem_nil, or_false] at hroute
  obtain rfl | rfl | rfl | rfl | hroute := hroute
  iterate 2
    · obtain ⟨a, ha, rfl⟩ := ofOne_some ht
      rintro _ ⟨⟩
      exact hparams a ha
  iterate 2
    · obtain ⟨_, -, rfl⟩ := ofOne_some ht
      rintro _ ⟨⟩
  obtain rfl | rfl | rfl := hroute <;>
  · obtain ⟨a, ha, _, -, rfl⟩ := ofTwo_some ht
    rintro _ ⟨⟩
    exact hparams a ha

theorem customer_reached {target : Target}
    (h : mounted platform req CUSTOMER_BASE customerQueueRoutes .customer = some (.target target)) :
    Reached platform req target := by
  obtain ⟨t, rfl, route, hroute, params, ht, hparams⟩ := mounted_target h
  simp only [customerQueueRoutes, List.mem_cons, List.not_mem_nil, or_false] at hroute
  obtain rfl | rfl := hroute <;>
  · obtain ⟨a, ha, rfl⟩ := ofOne_some ht
    exact hparams a ha

theorem internal_reached {target : Target} (hs2s : platform.s2sAuth req = none)
    (h : mounted platform req INTERNAL_BASE internalQueueRoutes .internal = some (.target target)) :
    Reached platform req target := by
  obtain ⟨t, rfl, route, hroute, params, ht, hparams⟩ := mounted_target h
  simp only [internalQueueRoutes, List.mem_cons, List.not_mem_nil, or_false] at hroute
  obtain rfl | rfl := hroute
  · obtain ⟨_, -, b, hb, rfl⟩ := ofTwo_some ht
    exact ⟨hs2s, hparams b hb⟩
  · obtain ⟨a, ha, rfl⟩ := ofOne_some ht
    exact ⟨hs2s, hparams a ha⟩

theorem router_reached {target : Target} (h : router platform req = .ok (some (.target target))) :
    Reached platform req target := by
  rw [router] at h
  split at h
  · rename_i found hfound
    cases h
    simp only [Option.orElse_eq_orElse, Option.orElse_eq_or, Option.or_eq_some_iff] at hfound
    obtain hhealth | ⟨-, hstaff | ⟨-, hstaff | ⟨-, hcustomer⟩⟩⟩ := hfound
    · obtain ⟨route, hroute, params, ht, -⟩ := findRoute_target hhealth
      simp only [healthRoutes, List.mem_cons, List.not_mem_nil, or_false] at hroute
      obtain rfl | rfl := hroute <;>
      · cases ht
        trivial
    · exact staff_reached hstaff
    · exact staff_reached hstaff
    · exact customer_reached hcustomer
  · split at h
    · cases h
    · split at h
      · cases h
      · rename_i hs2s
        exact internal_reached hs2s (Except.ok.inj h)

end reached

section chains

variable {platform : Platform} {req : HttpRequest} {op : Operation} {target : StaffTarget}
  {route : StaffRoute} {handler : Handler}

theorem bind_ok {ε α β : Type} {x : Except ε α} {f : α → Except ε β} {b : β} :
    (x >>= f) = .ok b ↔ ∃ a, x = .ok a ∧ f a = .ok b := by
  cases x with
  | error e => exact ⟨nofun, fun ⟨_, h, _⟩ => nomatch h⟩
  | ok a => exact ⟨fun h => ⟨a, rfl, h⟩, fun ⟨_, h, hf⟩ => by cases h; exact hf⟩

theorem map_ok {ε α β : Type} {x : Except ε α} {f : α → β} {b : β} :
    x.map f = .ok b ↔ ∃ a, x = .ok a ∧ f a = b := by
  cases x <;> simp [Except.map]

theorem mapError_ok {ε δ α : Type} {x : Except ε α} {f : ε → δ} {a : α}
    (h : x.mapError f = .ok a) : x = .ok a := by
  cases x with
  | error e => cases h
  | ok b =>
    cases h
    rfl

theorem validateParams_ok {issues : List FormattedValidationError} :
    validateParams issues = .ok () ↔ issues = [] := by
  rw [validateParams]
  split <;> simp_all

theorem uuidField_nil {isUuid : String → Bool} {field message value : String} :
    uuidField isUuid field message value = [] ↔ isUuid value = true := by
  rw [uuidField]
  split <;> simp_all

/-- The route a staff request is taken for has its parameters and their checks. -/
theorem validated_route (h : target.validated platform req = .ok route) :
    route.paramRestaurantId = target.paramRestaurantId ∧
      paramsIssues platform.zod.isUuid route = target.paramsIssues platform := by
  cases target with
  | ringCustomer => exact Except.ok.inj h ▸ ⟨rfl, rfl⟩
  | _ =>
    obtain ⟨_, -, rfl⟩ := map_ok.mp h
    exact ⟨rfl, rfl⟩

theorem staffQueueChain_ok (h : staffQueueChain platform req target = .ok handler) :
    ∃ route, target.validated platform req = .ok route ∧
      staffQueueRouter platform.zod.isUuid platform.ticketDeepLinkBaseUrl ⟨req.headers, route⟩ =
        .ok handler := by
  obtain ⟨user, huser, h⟩ := bind_ok.mp h
  obtain ⟨_, hparams, h⟩ := bind_ok.mp h
  obtain ⟨route, hroute, h⟩ := bind_ok.mp h
  obtain ⟨hparam, hissues⟩ := validated_route hroute
  refine ⟨route, hroute, ?_⟩
  have hparams' : validateRequestParams platform.zod.isUuid route = .ok () :=
    if_pos (hissues.trans (validateParams_ok.mp hparams))
  have huser' : staffAuthMiddleware req.headers (pathParameter route.paramRestaurantId) = .ok user := by
    rw [hparam, huser]
  exact bind_ok.mpr ⟨user, huser', bind_ok.mpr ⟨(), hparams', h⟩⟩

/-- Who may have which operation carried out. -/
inductive Permits (platform : Platform) (req : HttpRequest) : Operation → Prop
  | customer {user : AuthenticatedCustomer} {restaurantId : String} {body : JoinQueueBody}
      (htarget : router platform req = .ok (some (.target (.customer (.joinQueue restaurantId)))))
      (huser : customerAuthMiddleware req.headers = .ok user)
      (huuid : platform.zod.isUuid restaurantId = true)
      (hbody : joinQueueBodySchema platform.zod req.body = .ok body) :
      Permits platform req (.register (joinQueue user restaurantId body))
  | staff {target : StaffTarget} {route : StaffRoute} {op : Operation}
      (htarget : router platform req = .ok (some (.target (.staff target))))
      (hroute : target.validated platform req = .ok route)
      (hrouter : staffQueueRouter platform.zod.isUuid platform.ticketDeepLinkBaseUrl
        ⟨req.headers, route⟩ = .ok (.operation op)) :
      Permits platform req op

theorem app_permits (h : app platform req = .ok (.operation op)) : Permits platform req op := by
  rw [app] at h
  split at h
  · cases h
  · cases h
  · cases h
  rename_i target htarget
  have hchain := mapError_ok h
  cases target with
  | health | metrics => cases hchain
  | staff target =>
    obtain ⟨handler, hhandler, haction⟩ := map_ok.mp hchain
    cases handler with
    | getStaffQueue => cases haction
    | operation =>
      cases haction
      obtain ⟨route, hroute, hrouter⟩ := staffQueueChain_ok hhandler
      exact .staff htarget hroute hrouter
  | customer target =>
    obtain ⟨user, huser, h⟩ := bind_ok.mp hchain
    obtain ⟨_, hparams, h⟩ := bind_ok.mp h
    have huuid := uuidField_nil.mp (validateParams_ok.mp hparams)
    cases target with
    | getEta =>
      obtain ⟨_, -, h⟩ := bind_ok.mp h
      cases h
    | joinQueue restaurantId =>
      obtain ⟨body, hbody, h⟩ := bind_ok.mp h
      cases h
      exact .customer htarget huser huuid (mapError_ok hbody)
  | internal target =>
    cases target <;>
    · obtain ⟨-, -, h⟩ := bind_ok.mp hchain
      cases h

end chains

section rows

variable {platform : Platform} {req : HttpRequest} {op : Operation} {input : RegisterQueueInput}
  {e d : QueueEntry}

/-- A stored row as a guest may be registered with. -/
structure Presentable (e : QueueEntry) : Prop where
  guest : GuestDetails e.guestName e.phone e.partySize
  notes : ∀ s ∈ e.specialNotes, s ≠ "" ∧ Trimmed s ∧ utf16Length s ≤ SPECIAL_NOTES_MAX
  fid : ∀ s ∈ e.fid, s ≠ "" ∧ Trimmed s
  online : e.registrationType = .online ↔ e.userId.isSome
  device : e.fid.isSome → e.registrationType = .online

/-- The row is the one the request asks for, at the restaurant its path names, and its
sender may ask for it: a customer for themselves, or the restaurant's staff for a guest
at the door. -/
inductive RegisteredBy (platform : Platform) (req : HttpRequest) (e : QueueEntry) : Prop
  | customer {user : AuthenticatedCustomer} {restaurantId : String} {body : JoinQueueBody}
      (htarget : router platform req = .ok (some (.target (.customer (.joinQueue restaurantId)))))
      (hnames : Names platform req restaurantId)
      (huser : customerAuthMiddleware req.headers = .ok user)
      (hbody : joinQueueBodySchema platform.zod req.body = .ok body)
      (hrow : e.restaurantId = .ofText restaurantId ∧ e.userId = some (.ofText user.userId) ∧
        e.registrationType = .online)
      (hguest : e.guestName = body.guestName ∧ e.phone = body.guestPhone ∧
        e.partySize = body.partySize ∧ e.specialNotes = body.specialNotes ∧ e.fid = body.fid)
  | staff {restaurantId : String} {body : RegisterWalkInBody}
      (htarget : router platform req = .ok (some (.target (.staff (.registerWalkIn restaurantId)))))
      (hnames : Names platform req restaurantId)
      (hstaff : ¬ Unentitled ⟨req.headers, .registerWalkIn restaurantId body⟩)
      (hbody : registerWalkInBodySchema platform.zod req.body = .ok body)
      (hrow : e.restaurantId = .ofText restaurantId ∧ e.userId = none ∧ e.registrationType = .walkIn)
      (hguest : e.guestName = body.guestName ∧ e.phone = body.guestPhone ∧
        e.partySize = body.partySize ∧ e.specialNotes = truthy body.specialNotes ∧ e.fid = none)

theorem truthy_nonempty {o : Option String} (h : ∀ s ∈ o, s ≠ "") : truthy o = o := by
  cases o with
  | none => rfl
  | some s => exact Option.filter_some_pos (by simpa using h s rfl)

theorem trim_notes {o : Option String} (h : ∀ s ∈ o, Trimmed s) : o.map trim = o := by
  cases o with
  | none => rfl
  | some s => exact congrArg some (h s rfl)

theorem validated_walkIn {target : StaffTarget} {restaurantId : String} {body : RegisterWalkInBody}
    (h : target.validated platform req = .ok (.registerWalkIn restaurantId body)) :
    target = .registerWalkIn restaurantId ∧
      registerWalkInBodySchema platform.zod req.body = .ok body := by
  cases target with
  | registerWalkIn =>
    obtain ⟨_, hbody, hroute⟩ := map_ok.mp h
    cases hroute
    exact ⟨rfl, mapError_ok hbody⟩
  | ringCustomer => cases h
  | _ =>
    obtain ⟨_, -, hroute⟩ := map_ok.mp h
    cases hroute

theorem permits_registered (huuid : UuidAlphabet platform.zod.isUuid) (h : Permits platform req op)
    (hinput : op = .register input) (he : AsRequested input e) : RegisteredBy platform req e := by
  obtain ⟨hrestaurant, huser, hname, hphone, hparty, hnotes, hfid, htype⟩ := he
  cases h with
  | customer htarget hcustomer _ hbody =>
    cases hinput
    have hform := (normalizes_checked reads_joinQueue).sound _ _ hbody
    refine .customer htarget (router_reached htarget) hcustomer hbody ⟨hrestaurant, huser, htype⟩ ⟨?_, ?_, hparty, ?_, hfid⟩
    · exact hname.trans hform.guest.trimmed
    · exact hphone.trans (phone_trimmed hform.guest.phone)
    · refine hnotes.trans ?_
      change truthy (Option.map trim (JoinQueueBody.specialNotes _)) = _
      rw [trim_notes fun s hs => (hform.notes s hs).2.1, truthy_nonempty fun s hs => (hform.notes s hs).1]
  | @staff _ route _ htarget hroute hrouter =>
    have hentitled := router_entitled huuid hrouter
    obtain ⟨user, -, -, hcontroller⟩ := router_ok hrouter
    cases route with
    | registerWalkIn restaurantId body =>
      obtain ⟨rfl, hbody⟩ := validated_walkIn hroute
      have hform := (normalizes_checked reads_registerWalkIn).sound _ _ hbody
      change (if _ : _ then _ else _) = _ at hcontroller
      split at hcontroller
      · cases hcontroller
      cases hcontroller
      cases hinput
      refine .staff htarget (router_reached htarget _ rfl) hentitled hbody ⟨hrestaurant, huser, htype⟩ ⟨?_, ?_, hparty, ?_, hfid⟩
      · exact hname.trans hform.guest.trimmed
      · exact hphone.trans (phone_trimmed hform.guest.phone)
      · exact hnotes.trans (congrArg truthy (trim_notes fun s hs => (hform.notes s hs).1))
    | getLiveQueue => cases hcontroller
    | _ =>
      change (if _ then _ else _) = _ at hcontroller
      split at hcontroller
      · cases hcontroller
      · cases hcontroller
        cases hinput

theorem registeredBy_presentable (h : RegisteredBy platform req e) : Presentable e := by
  cases h with
  | customer _ _ huser hbody hrow hguest =>
    obtain ⟨-, huserId, htype⟩ := hrow
    obtain ⟨hname, hphone, hparty, hnotes, hfid⟩ := hguest
    have hform := (normalizes_checked reads_joinQueue).sound _ _ hbody
    refine ⟨?_, ?_, ?_, ?_, fun _ => htype⟩
    · rw [hname, hphone, hparty]
      exact hform.guest
    · rw [hnotes]
      exact hform.notes
    · rw [hfid]
      exact hform.fid
    · simp [htype, huserId]
  | staff _ _ hstaff hbody hrow hguest =>
    obtain ⟨-, huserId, htype⟩ := hrow
    obtain ⟨hname, hphone, hparty, hnotes, hfid⟩ := hguest
    have hform := (normalizes_checked reads_registerWalkIn).sound _ _ hbody
    refine ⟨?_, ?_, ?_, ?_, ?_⟩
    · rw [hname, hphone, hparty]
      exact hform.guest
    · rw [hnotes]
      intro s hs
      obtain ⟨hs, hne⟩ := truthy_some hs
      exact ⟨hne, hform.notes s hs⟩
    · simp [hfid]
    · simp [htype, huserId]
    · simp [hfid]

theorem registeredBy_sameParty (h : RegisteredBy platform req e) (hd : SameParty e d) :
    RegisteredBy platform req d := by
  cases h with
  | customer htarget hnames huser hbody hrow hguest =>
    rw [hd]
    exact .customer htarget hnames huser hbody hrow hguest
  | staff htarget hnames hstaff hbody hrow hguest =>
    rw [hd]
    exact .staff htarget hnames hstaff hbody hrow hguest

end rows

section runs

variable {ι : Type} [DecidableEq ι] {E : Env} {ops : ι → Operation} {w : World} {tr : Interleaving ι}
  {q : Underway ι}

/-- Whatever requests are let in and however the operations they are handed to take
turns, every row stored at the end was stored at the start or is one that a request
asked for and whose sender was entitled to ask, in the form the schemas demand. -/
theorem front_door {platform : Platform} {reqs : ι → HttpRequest}
    (huuid : UuidAlphabet platform.zod.isUuid) (hops : ∀ i, app platform (reqs i) = .ok (.operation (ops i)))
    (hrun : Run (Interleaves E.Answers) (together ops w) tr q) :
    ∀ e ∈ q.state.store.entries, (∃ d ∈ w.store.entries, SameParty d e) ∨
      ∃ i, RegisteredBy platform (reqs i) e ∧ Presentable e := by
  suffices h : ∀ e ∈ q.state.store.entries, (∃ d ∈ w.store.entries, SameParty d e) ∨
      ∃ i, RegisteredBy platform (reqs i) e by
    intro e he
    exact (h e he).imp_right fun ⟨i, hi⟩ => ⟨i, hi, registeredBy_presentable hi⟩
  have hasks := interleaves_calls (fun i => asks_execute (ops i)) hrun
  refine run_invariant (I := fun _ (q : Underway ι) => ∀ e ∈ q.state.store.entries,
      (∃ d ∈ w.store.entries, SameParty d e) ∨ ∃ i, RegisteredBy platform (reqs i) e)
    (G := fun step => Stewarded ops step ∧ Asks (ops step.label.body) step.label.call)
    (fun e he => .inl ⟨e, he, sameParty_refl e⟩) ?_ hrun
    fun step hstep => ⟨run_stewarded hrun step hstep, hasks step hstep⟩
  rintro tr q l q' - hrows hstep ⟨⟨m, hallows, hm⟩, hasked⟩ e he
  obtain ⟨i, -, hanswers⟩ := hstep
  obtain ⟨d, hd, hde⟩ | ⟨changedBy, rfl⟩ := answers_rows hallows hm hanswers he
  · obtain ⟨b, hb, hbd⟩ | ⟨i, hi⟩ := hrows d hd
    · exact .inl ⟨b, hb, sameParty_trans hbd hde⟩
    · exact .inr ⟨i, registeredBy_sameParty hi hde⟩
  · obtain ⟨input, hinput, hrequested⟩ := hasked
    exact .inr ⟨i, permits_registered huuid (app_permits (hops i)) hinput hrequested⟩

end runs

section witness

open SpotQueue.Simulation

def action? : Except Refusal Action → Option Operation
  | .ok (.operation op) => some op
  | _ => none

theorem action?_get {x : Except Refusal Action} (h : (action? x).isSome) :
    x = .ok (.operation ((action? x).get h)) := by
  cases x with
  | error => cases h
  | ok action =>
    cases action with
    | operation => rfl
    | _ => cases h

def plainTexts : ZodTexts where
  isUuid := versionedUuid
  invalidType expected _ := "expected " ++ expected
  unrecognizedKeys _ := "unrecognized keys"
  tooLong n := "longer than " ++ toString n
  expectedInteger := "expected int"
  unsafeInteger _ := "unsafe int"
  notPositive := "not positive"

def plainPlatform : Platform where
  zod := plainTexts
  invalidOption _ _ := "invalid option"
  coerceNumber _ := none
  decodeURIComponent := some
  s2sAuth _ := none
  ticketDeepLinkBaseUrl := none

/-- A customer joins from the phone, the host enters a guest at the door. -/
def atTheDoor : Bool → HttpRequest
  | false =>
    { method := .post
      path := ["customer", "restaurants", RESTAURANT_A, "queue", "join"]
      headers := ⟨.single "d4444444-4444-4444-8444-444444444444", .undefined, .undefined, .undefined⟩
      query := .object []
      body := some (.object [("guestName", .string " Ada "), ("guestPhone", .string "+15559876543"),
        ("partySize", .number 2), ("fid", .null)]) }
  | true =>
    { method := .post
      path := ["API", "v1", "Staff", "restaurants", RESTAURANT_A, "queue", "walk-in"]
      headers := ⟨.single "staff", .single "STAFF", .undefined, .single RESTAURANT_A⟩
      query := .object []
      body := some (.object [("guestName", .string "Bo"), ("guestPhone", .string "+15551234567"),
        ("partySize", .number 4), ("specialNotes", .string " ")]) }

theorem atTheDoor_let_in : ∀ i, (action? (app plainPlatform (atTheDoor i))).isSome := by
  decide +kernel

def letIn (i : Bool) : Operation := (action? (app plainPlatform (atTheDoor i))).get (atTheDoor_let_in i)

def registering : Interleaving Bool × Underway Bool :=
  interleave smooth.reply (together letIn (.empty 0)) ((List.replicate 16 [false, true]).flatten)

theorem front_door_atTheDoor :
    registering.2.state.store.entries.length = 2 ∧
      ∀ e ∈ registering.2.state.store.entries, (∃ d ∈ (World.empty 0).store.entries, SameParty d e) ∨
        ∃ i, RegisteredBy plainPlatform (atTheDoor i) e ∧ Presentable e :=
  ⟨by decide +kernel, front_door versionedUuid_alphabet (fun i => action?_get (atTheDoor_let_in i))
    (interleave_run smooth.reply_answers _ _)⟩

end witness

end SpotQueue.FrontDoor
