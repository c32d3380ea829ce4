import BabilCors.AdminGate
import BabilCors.BucketRate
import BabilCors.ServerRuns

/-!
# The rate limit of the admin interface

Every address has a bucket of its own, made at its first request and never
given back.  Nothing but a request of the address touches the bucket: neither
the handlers nor the reloads do.  So the verdicts on the requests of an address
are those of one bucket on the times of these requests.
-/

namespace BabilCors

open Py TransitionRuns

namespace NtripCaster

variable {F : Type}

/-! ## What leaves the buckets alone -/

/-- The settings of the limit and its buckets are the same. -/
structure SameRate (s s' : NtripCaster F) : Prop where
  buckets : s'.adminBuckets = s.adminBuckets
  limit : s'.adminRateLimitPerMin = s.adminRateLimitPerMin
  allow : s'.adminIpAllow = s.adminIpAllow

theorem SameRate.refl (s : NtripCaster F) : SameRate s s :=
  ⟨rfl, rfl, rfl⟩

theorem SameRate.of_eq {s s' : NtripCaster F} (heq : s' = s) :
    SameRate s s' :=
  heq ▸ .refl s

theorem SameRate.trans {s s' s'' : NtripCaster F} (hfirst : SameRate s s')
    (hsecond : SameRate s' s'') : SameRate s s'' :=
  ⟨hsecond.buckets.trans hfirst.buckets, hsecond.limit.trans hfirst.limit,
    hsecond.allow.trans hfirst.allow⟩

section Handlers

variable [PyFloat F]

theorem reloadFromDisk_rate (s : NtripCaster F) :
    SameRate s s.reloadFromDisk := by
  rcases s.reloadFromDisk_reloaded.1 with
    ⟨_, _, _, _, _, _, _, _, _, hs'⟩
  rw [hs']
  exact ⟨rfl, rfl, rfl⟩

theorem updateConfig_rate (s : NtripCaster F) (updater : Updater F)
    (diskError : Option PyErr) :
    SameRate s (s.updateConfig updater diskError).2 := by
  cases s.updateConfig_outcome updater diskError with
  | kept hwrite hs' => exact .of_eq hs'
  | written raw hwrite hs' =>
      have hreload := ({ s with file := .ok raw }).reloadFromDisk_rate
      rw [hs']
      exact ⟨hreload.buckets, hreload.limit, hreload.allow⟩

theorem resource_rate [SchemaLib F] {s : NtripCaster F} {b : Bearer F}
    {req : AdminRequest F} {body : Json F} {m : Moment} {o : Outcome F}
    (hresource : s.resource b req body m = some o) : SameRate s o.server := by
  have hfollows := s.resource_follows b req body m
  rw [hresource] at hfollows
  generalize resourceCall? b.principal req body = call? at hfollows
  cases hfollows with
  | calls call =>
      rw [answerUpdate_server]
      exact s.updateConfig_rate call.updater m.diskError
  | idle hkept => exact .of_eq (hkept o rfl)

theorem switchMountpoint_rate (s : NtripCaster F) (b : Bearer F)
    (req : AdminRequest F) (body : Json F) (m : Moment) (action : String)
    (updater : String → Updater F) :
    SameRate s
      (s.switchMountpoint b req body m action updater).server := by
  cases s.switchMountpoint_outcome b req body m action updater with
  | kept hno hs' => exact .of_eq hs'
  | updated value hmethod hvalue hname hs' =>
      have hupdate := s.updateConfig_rate (updater value.pyStr) m.diskError
      rw [hs']
      exact ⟨hupdate.buckets, hupdate.limit, hupdate.allow⟩

theorem kick_rate (s : NtripCaster F) (b : Bearer F) (req : AdminRequest F)
    (body : Json F) (m : Moment) :
    SameRate s (s.kick b req body m).server := by
  cases s.kick_outcome b req body m with
  | kept hno hs' => exact .of_eq hs'
  | missed connv mpv hconnv hmpv htarget hs' =>
      rw [hs']
      exact ⟨rfl, rfl, rfl⟩
  | kicked connv mpv connId mp hmethod hconnv hmpv htarget hs' =>
      rw [hs']
      exact ⟨rfl, rfl, rfl⟩

theorem operation_rate [Crypto] (s : NtripCaster F) (b : Bearer F)
    (req : AdminRequest F) (body : Json F) (m : Moment) :
    SameRate s (s.operation b req body m).server := by
  cases s.operation_outcome b req body m with
  | replied reply hreply ho =>
      rw [ho]
      exact .refl s
  | raised e ho =>
      rw [ho]
      exact .refl s
  | operates base hbase hpath hrole ho =>
      rcases ho with ⟨_, ho⟩ | ⟨_, ho⟩ | ⟨_, ho⟩
      · rw [ho]
        exact s.switchMountpoint_rate b req body m "disable" disableMountpoint
      · rw [ho]
        exact s.switchMountpoint_rate b req body m "enable" enableMountpoint
      · rw [ho]
        exact s.kick_rate b req body m
  | passed ho =>
      rw [ho]
      exact ⟨rfl, rfl, rfl⟩

variable [Crypto] [JwtLib F] [SchemaLib F]

theorem dispatch_rate (s : NtripCaster F) (b : Bearer F)
    (req : AdminRequest F) (m : Moment) :
    SameRate s (s.dispatch b req m).server := by
  unfold dispatch
  dsimp only
  split_ifs
  · exact .of_eq (by rw [login_server])
  · rcases s.tokenRefresh_jwt req.bodyJson m with ⟨jwt, hjwt⟩
    rw [hjwt]
    exact ⟨rfl, rfl, rfl⟩
  · rcases s.tokenRevoke_jwt b req.bodyJson m with ⟨jwt, hjwt⟩
    rw [hjwt]
    exact ⟨rfl, rfl, rfl⟩
  · exact .refl s
  · cases hresource : s.resource b req req.bodyJson m with
    | none => exact s.operation_rate b req req.bodyJson m
    | some o => exact resource_rate hresource

omit [SchemaLib F] in
theorem authenticate_rate (s : NtripCaster F)
    (req : AdminRequest F) (m : Moment) :
    SameRate s (s.authenticate req m).2 := by
  rcases s.authenticate_jwt req m with ⟨jwt, hjwt⟩
  rw [hjwt]
  exact ⟨rfl, rfl, rfl⟩

/-- A request changes the rate state as its own check does, if it comes from
a listed address, and else not at all. -/
theorem handleAdmin_rate (s : NtripCaster F) (req : AdminRequest F)
    (m : Moment) :
    SameRate
      (if s.adminIpOk req then (s.adminRateOk req.clientIp m.monotonic).2
      else s) (s.handleAdmin req m).server := by
  unfold handleAdmin
  cases s.adminIpOk req with
  | false => exact .refl s
  | true =>
      rcases s.adminRateOk req.clientIp m.monotonic with ⟨ok, s₁⟩
      cases ok with
      | false => exact .refl s₁
      | true =>
          have hauth := s₁.authenticate_rate req m
          rcases hbearer : s₁.authenticate req m with ⟨_ | b, s₂⟩
          · rw [hbearer] at hauth
            simp only [Bool.not_true, Bool.false_eq_true, if_false, if_true,
              hbearer]
            exact hauth
          · rw [hbearer] at hauth
            simp only [Bool.not_true, Bool.false_eq_true, if_false, if_true,
              hbearer]
            cases queryOk req with
            | false => exact hauth
            | true => exact hauth.trans (s₂.dispatch_rate b req m)

end Handlers

/-! ## The verdicts -/

/-- The bucket of an address, made at this time. -/
def newBucket (limit : ℤ) (now : ℚ) : TokenBucket :=
  .new (limit / 60) limit now

def askOne (now : ℚ) : BucketCall :=
  .consume 1 now

/-- The verdicts on requests at these times of a bucket that is there, or that
the first request makes. -/
def verdictsFrom (limit : ℤ) (bucket? : Option TokenBucket) :
    List ℚ → List ConsumeResult
  | [] => []
  | now :: later =>
      (bucket?.getD (newBucket limit now)).consumes
        ((now :: later).map askOne)

theorem verdictsFrom_cons (limit : ℤ) (bucket? : Option TokenBucket)
    (now : ℚ) (later : List ℚ) :
    verdictsFrom limit bucket? (now :: later) =
      ⟨1, now, ((bucket?.getD (newBucket limit now)).consume 1 now).1⟩ ::
        verdictsFrom limit
          (some ((bucket?.getD (newBucket limit now)).consume 1 now).2)
          later := by
  cases later with
  | nil => rfl
  | cons next later => rfl

theorem adminRateOk_bucket {s : NtripCaster F}
    (hlimit : 0 < s.adminRateLimitPerMin) (ip : String) (now : ℚ) :
    s.adminRateOk ip now =
      ((((s.adminBuckets.get? ip).getD
          (newBucket s.adminRateLimitPerMin now)).consume 1 now).1,
        s.withBuckets (s.adminBuckets.set ip
          (((s.adminBuckets.get? ip).getD
            (newBucket s.adminRateLimitPerMin now)).consume 1 now).2)) := by
  have hone : (1 : ℚ) ≤ s.adminRateLimitPerMin := by
    exact_mod_cast hlimit
  have hrate : max ((s.adminRateLimitPerMin : ℚ) / 60) (1 / 1000) =
      s.adminRateLimitPerMin / 60 := by
    apply max_eq_left
    linarith
  have hcap : max (s.adminRateLimitPerMin : ℚ) 1 = s.adminRateLimitPerMin :=
    max_eq_left hone
  unfold adminRateOk newBucket
  rw [if_neg (not_le.mpr hlimit)]
  dsimp only
  rw [hrate, hcap]
  rfl

/-- The time of the request of an address that gets as far as the check. -/
def arrival? (s : NtripCaster F) (ip : String) : Event F → Option ℚ
  | .admin req m =>
      if s.adminIpOk req ∧ req.clientIp = ip then some m.monotonic else none
  | _ => none

/-- The verdict on it. -/
def rateVerdict (ip : String) (s : NtripCaster F) (event : Event F) :
    List ConsumeResult :=
  ((s.arrival? ip event).map fun now =>
    ⟨1, now, (s.adminRateOk ip now).1⟩).toList

theorem arrival?_congr {s s' : NtripCaster F}
    (hallow : s'.adminIpAllow = s.adminIpAllow) (ip : String) :
    s'.arrival? ip = s.arrival? ip := by
  funext event
  cases event with
  | admin req m =>
      unfold arrival? adminIpOk
      rw [hallow]
  | connection | snapshot | reload => rfl

section Runs

variable [PyFloat F] [Crypto] [JwtLib F] [SchemaLib F]

/-- The settings of the limit stay, and a step asks the bucket of an address
for its own requests only. -/
structure AsksBucket (ip : String) (s s' : NtripCaster F)
    (arrival? : Option ℚ) : Prop where
  limit : s'.adminRateLimitPerMin = s.adminRateLimitPerMin
  allow : s'.adminIpAllow = s.adminIpAllow
  kept : arrival? = none →
    s'.adminBuckets.get? ip = s.adminBuckets.get? ip
  asked : ∀ now, arrival? = some now →
    s'.adminBuckets.get? ip = some (((s.adminBuckets.get? ip).getD
      (newBucket s.adminRateLimitPerMin now)).consume 1 now).2

omit [PyFloat F] [Crypto] [JwtLib F] [SchemaLib F] in
theorem AsksBucket.of_same {s s' : NtripCaster F} (hsame : SameRate s s')
    (ip : String) : AsksBucket ip s s' none :=
  ⟨hsame.limit, hsame.allow, fun _ => by rw [hsame.buckets], nofun⟩

theorem step_asksBucket {s s' : NtripCaster F} {event : Event F}
    (hlimit : 0 < s.adminRateLimitPerMin)
    (hstep : s.step event = some s') (ip : String) :
    AsksBucket ip s s' (s.arrival? ip event) := by
  cases event with
  | connection event =>
      rcases Option.map_eq_some_iff.mp hstep with ⟨c, hc, rfl⟩
      have hsame : SameRate s { s with caster := c } := ⟨rfl, rfl, rfl⟩
      exact .of_same hsame ip
  | snapshot mountpoint =>
      obtain rfl := Option.some.inj hstep
      exact .of_same (.refl s) ip
  | reload =>
      obtain rfl := Option.some.inj hstep
      exact .of_same s.reloadFromDisk_rate ip
  | admin req m =>
      obtain rfl := Option.some.inj hstep
      have hrate := s.handleAdmin_rate req m
      cases haddress : s.adminIpOk req with
      | false =>
          rw [haddress] at hrate
          have hnone : s.arrival? ip (.admin req m) = none := by
            simp [arrival?, haddress]
          rw [hnone]
          exact .of_same hrate ip
      | true =>
          rw [haddress, if_pos rfl, adminRateOk_bucket hlimit] at hrate
          refine ⟨hrate.limit, hrate.allow, ?_, ?_⟩
          · intro hnone
            have hip : req.clientIp ≠ ip := by
              simpa [arrival?, haddress] using hnone
            rw [hrate.buckets]
            exact PyDict.get?_set_of_ne _ _ hip
          · intro now hnow
            simp only [arrival?, haddress, true_and,
              Option.ite_none_right_eq_some, Option.some.injEq] at hnow
            obtain ⟨rfl, rfl⟩ := hnow
            rw [hrate.buckets]
            exact PyDict.get?_set_self _ _ _

/-- The verdicts on the requests of an address are those of its bucket. -/
theorem run_verdicts {s s' : NtripCaster F} {events : List (Event F)}
    (hlimit : 0 < s.adminRateLimitPerMin)
    (hrun : run step s events = some s') (ip : String) :
    outputs step (rateVerdict ip) s events =
      verdictsFrom s.adminRateLimitPerMin (s.adminBuckets.get? ip)
        (events.filterMap (s.arrival? ip)) := by
  induction events generalizing s with
  | nil => rfl
  | cons event events ih =>
      rcases run_cons_eq_some.mp hrun with ⟨next, hnext, hrest⟩
      have hasks := step_asksBucket hlimit hnext ip
      have htail := ih (hasks.limit ▸ hlimit) hrest
      rw [outputs_cons hnext, htail, arrival?_congr hasks.allow, hasks.limit]
      cases hnow : s.arrival? ip event with
      | none =>
          rw [hasks.kept hnow, List.filterMap_cons_none hnow]
          simp [rateVerdict, hnow]
      | some now =>
          rw [hasks.asked now hnow, List.filterMap_cons_some hnow,
            verdictsFrom_cons]
          simp only [rateVerdict, hnow, Option.map_some, Option.toList_some,
            adminRateOk_bucket hlimit, List.singleton_append]

end Runs

/-! ## The bound -/

/-- How many of the requests in a window are let through. -/
def allowedWithin (start stop : ℚ) (verdicts : List ConsumeResult) : ℕ :=
  verdicts.countP fun r => r.ok ∧ start ≤ r.now ∧ r.now ≤ stop

theorem allowedWithin_eq {start stop : ℚ} {verdicts : List ConsumeResult}
    (hone : ∀ r ∈ verdicts, r.n = 1) :
    allowedWithin start stop verdicts = grantedWithin start stop verdicts := by
  have hmap : ((verdicts.filter fun r =>
      r.ok ∧ start ≤ r.now ∧ r.now ≤ stop).map ConsumeResult.n) =
      List.replicate (allowedWithin start stop verdicts) 1 := by
    rw [List.eq_replicate_iff]
    constructor
    · rw [List.length_map, allowedWithin, List.countP_eq_length_filter]
    · intro n hn
      obtain ⟨r, hr, rfl⟩ := List.mem_map.mp hn
      exact hone r (List.mem_filter.mp hr).1
  unfold grantedWithin
  rw [hmap]
  simp

theorem mem_consumes_askOne {b : TokenBucket} {times : List ℚ}
    {r : ConsumeResult} (hr : r ∈ b.consumes (times.map askOne)) :
    r.n = 1 := by
  induction times generalizing b with
  | nil => cases hr
  | cons now times ih =>
      rcases List.mem_cons.mp hr with rfl | hlater
      · rfl
      · exact ih hlater

theorem allowedWithin_verdictsFrom {limit : ℤ} (hlimit : 0 < limit)
    {times : List ℚ} (htimes : times.Pairwise (· ≤ ·)) (start : ℚ)
    {length : ℚ} (hlength : 0 ≤ length) :
    (allowedWithin start (start + length) (verdictsFrom limit none times) : ℚ)
      ≤ limit + limit / 60 * length := by
  have hcapacity : (0 : ℚ) < limit := by
    exact_mod_cast hlimit
  have hrate : (0 : ℚ) < limit / 60 := by
    positivity
  cases times with
  | nil =>
      have hflow : 0 ≤ (limit : ℚ) / 60 * length := by
        positivity
      simp only [verdictsFrom, allowedWithin, List.countP_nil, Nat.cast_zero]
      linarith
  | cons now later =>
      have htimely : BucketCall.Timely now ((now :: later).map askOne) := by
        unfold BucketCall.Timely
        have hnow : ((now :: later).map askOne).map BucketCall.now =
            now :: later := by
          simp [askOne, BucketCall.now, Function.comp_def]
        rw [hnow, List.pairwise_cons]
        refine ⟨?_, htimes⟩
        intro t ht
        rcases List.mem_cons.mp ht with rfl | ht
        · exact le_refl t
        · exact (List.pairwise_cons.mp htimes).1 t ht
      have hnew : (newBucket limit now).Bounded (limit / 60) limit :=
        .new hcapacity now
      rw [verdictsFrom, Option.getD_none,
        allowedWithin_eq fun r hr => mem_consumes_askOne hr,
        TokenBucket.grantedWithin_consumes]
      exact (hnew.takes_covered hrate hcapacity htimely).takenWithin_le
        hrate.le hcapacity.le start hlength

/-- The times of the admin requests. -/
def Event.adminTime? : Event F → Option ℚ
  | .admin _ m => some m.monotonic
  | _ => none

theorem arrivals_sublist (s : NtripCaster F) (ip : String)
    (events : List (Event F)) :
    (events.filterMap (s.arrival? ip)).Sublist
      (events.filterMap Event.adminTime?) := by
  induction events with
  | nil => exact List.Sublist.refl []
  | cons event events ih =>
      cases event with
      | admin req m =>
          rw [List.filterMap_cons_some (rfl : Event.adminTime? (.admin req m) =
            some m.monotonic)]
          by_cases hasks : s.adminIpOk req = true ∧ req.clientIp = ip
          · have hnow : s.arrival? ip (.admin req m) = some m.monotonic :=
              if_pos hasks
            rw [List.filterMap_cons_some hnow]
            exact ih.cons_cons m.monotonic
          · have hnone : s.arrival? ip (.admin req m) = none := if_neg hasks
            rw [List.filterMap_cons_none hnone]
            exact ih.cons m.monotonic
      | connection | snapshot | reload => exact ih

/-- In every run of the server the verdicts on the admin requests of an address
are those of one fresh bucket on the times of these requests alone, whatever
other addresses ask and whatever else the server does; and in a time no more
of them pass than a minute's worth and what the rate gives. -/
theorem run_adminRate [PyFloat F] [Crypto] [JwtLib F] [SchemaLib F]
    {s s' : NtripCaster F} {events : List (Event F)}
    (hlimit : 0 < s.adminRateLimitPerMin) (hfresh : s.adminBuckets = [])
    (htimes : (events.filterMap Event.adminTime?).Pairwise (· ≤ ·))
    (hrun : run step s events = some s') (ip : String) :
    outputs step (rateVerdict ip) s events =
        verdictsFrom s.adminRateLimitPerMin none
          (events.filterMap (s.arrival? ip)) ∧
      ∀ start length, 0 ≤ length →
        (allowedWithin start (start + length)
          (outputs step (rateVerdict ip) s events) : ℚ) ≤
            s.adminRateLimitPerMin + s.adminRateLimitPerMin / 60 * length := by
  have hverdicts := run_verdicts hlimit hrun ip
  rw [hfresh] at hverdicts
  refine ⟨hverdicts, ?_⟩
  intro start length hlength
  rw [hverdicts]
  exact allowedWithin_verdictsFrom hlimit
    (htimes.sublist (s.arrivals_sublist ip events)) start hlength

def askMe : Event ℚ :=
  .admin (bearerRequest "GET" "/admin/me" .null) firstMoment

theorem run_adminRate_twoRequests :
    (allowedWithin 0 (0 + 1) (outputs
      (@step ℚ _ noDigest (oneToken (accessClaims "root" "admin")) anyBody)
      (rateVerdict "10.0.0.1") (smallServer (.obj [])) [askMe, askMe]) : ℚ) ≤
        ((60 : ℤ) : ℚ) + (60 : ℤ) / 60 * 1 :=
  (@run_adminRate ℚ _ noDigest (oneToken (accessClaims "root" "admin"))
    anyBody (smallServer (.obj [])) _ [askMe, askMe] (by decide) rfl
    (List.pairwise_pair.mpr (le_refl 0)) rfl "10.0.0.1").2 0 1 (by norm_num)

end NtripCaster

end BabilCors
