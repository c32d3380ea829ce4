import BabilCors.Conveyor
import BabilCors.EventLog
import BabilCors.IotRelay

/-!
# Shipping the audit

`_audit_add` hands a record to a queue, if there is one, and `_audit_worker`
posts what it takes out of the queue to the endpoints that are configured.
Queue and worker are made by `_event_add`.  So nothing is shipped before the
first event, and after it everything that the queue has room for.
-/

namespace BabilCors

open Conveyor Py TransitionRuns

/-! ## The worker -/

inductive AuditEndpoint where
  | http
  | loki
  deriving DecidableEq, Repr

/-- The task of `_audit_worker`, and where it waits. -/
inductive AuditTask (F : Type) where
  | absent
  | waiting
  | sending (endpoint : AuditEndpoint) (item : AuditItem F)

structure AuditShipper (F : Type) where
  auditHttpUrl : String
  auditLokiUrl : String
  log : EventLog F
  auditQueue : Option (AsyncQueue 5000 (AuditItem F))
  auditTask : AuditTask F

/-- What may happen: a call of `_audit_add`, of `_event_add` or of `close`, or
the end of one of the waits of the worker, where a post fails when it
raises. -/
inductive ShipEvent (F : Type) where
  | audit (item : AuditItem F)
  | event (call : EventAdd F)
  | take
  | sent (ok : Bool)
  | close

namespace ShipEvent

variable {F : Type}

def record? : ShipEvent F → Option (AuditItem F)
  | .audit item => some item
  | _ => none

def isEvent : ShipEvent F → Bool
  | .event _ => true
  | _ => false

end ShipEvent

namespace AuditShipper

variable {F : Type}

def new (auditHttpUrl auditLokiUrl : String) : AuditShipper F where
  auditHttpUrl := auditHttpUrl
  auditLokiUrl := auditLokiUrl
  log := .new
  auditQueue := none
  auditTask := .absent

/-- `_audit_add`, as far as the queue goes; a full queue loses the record. -/
def auditAdd (s : AuditShipper F) (item : AuditItem F) : AuditShipper F :=
  { s with
    auditQueue := s.auditQueue.map fun q => (q.putNowait item).getD q }

def startWorker (s : AuditShipper F) : AuditShipper F :=
  match s.auditTask with
  | .absent =>
      if s.auditHttpUrl ≠ "" ∨ s.auditLokiUrl ≠ "" then
        { s with
          auditQueue := some (.new 5000 (AuditItem F))
          auditTask := .waiting }
      else s
  | _ => s

def eventAdd [PyFloat F] (s : AuditShipper F) (call : EventAdd F) :
    AuditShipper F :=
  if s.log.throttled call then s
  else { s with log := s.log.eventAdd call }.startWorker

/-- The second half of the loop's body. -/
def sendLoki (s : AuditShipper F) (item : AuditItem F) : AuditShipper F :=
  { s with
    auditTask :=
      if s.auditLokiUrl ≠ "" then .sending .loki item else .waiting }

def sendHttp (s : AuditShipper F) (item : AuditItem F) : AuditShipper F :=
  if s.auditHttpUrl ≠ "" then { s with auditTask := .sending .http item }
  else s.sendLoki item

def take (s : AuditShipper F) : Option (AuditShipper F) := do
  match s.auditTask with
  | .waiting =>
      let q ← s.auditQueue
      let (item, q) ← q.getNowait
      return { s with auditQueue := some q }.sendHttp item
  | _ => none

/-- The end of a post.  An exception ends the loop's body, so after a failed
post to the first endpoint the second gets nothing. -/
def sent (s : AuditShipper F) (ok : Bool) : Option (AuditShipper F) :=
  match s.auditTask with
  | .sending .http item =>
      some (if ok then s.sendLoki item else { s with auditTask := .waiting })
  | .sending .loki _ => some { s with auditTask := .waiting }
  | _ => none

/-- `close`, as far as the worker goes. -/
def close (s : AuditShipper F) : AuditShipper F :=
  match s.auditTask with
  | .absent => s
  | _ => { s with auditQueue := none, auditTask := .absent }

def step [PyFloat F] (s : AuditShipper F) :
    ShipEvent F → Option (AuditShipper F)
  | .audit item => some (s.auditAdd item)
  | .event call => some (s.eventAdd call)
  | .take => s.take
  | .sent ok => s.sent ok
  | .close => some s.close

/-! ## What is posted -/

/-- The record of a post that ends. -/
def posts (endpoint : AuditEndpoint) (s : AuditShipper F) :
    ShipEvent F → List (AuditItem F)
  | .sent _ =>
      match s.auditTask with
      | .sending used item => if used = endpoint then [item] else []
      | _ => []
  | _ => []

/-- The record of a post that ends without an exception. -/
def delivers (endpoint : AuditEndpoint) (s : AuditShipper F) :
    ShipEvent F → List (AuditItem F)
  | .sent true => s.posts endpoint (.sent true)
  | _ => []

/-- The record that a queue is offered. -/
def offers (s : AuditShipper F) : ShipEvent F → List (AuditItem F)
  | .audit item => if s.auditQueue.isSome then [item] else []
  | _ => []

def queued (s : AuditShipper F) : List (AuditItem F) :=
  (s.auditQueue.map AsyncQueue.items).getD []

/-- The record of the post that is under way. -/
def sending (endpoint : AuditEndpoint) (s : AuditShipper F) :
    List (AuditItem F) :=
  match s.auditTask with
  | .sending used item => if used = endpoint then [item] else []
  | _ => []

/-- The endpoint that the worker begins with. -/
def first (auditHttpUrl : String) : AuditEndpoint :=
  if auditHttpUrl ≠ "" then .http else .loki

/-- The urls stay; there is a queue when there is a worker, and only a
configured endpoint is used. -/
structure Configured (httpUrl lokiUrl : String) (s : AuditShipper F) :
    Prop where
  http : s.auditHttpUrl = httpUrl
  loki : s.auditLokiUrl = lokiUrl
  idle : s.auditTask = .absent → s.auditQueue = none
  sends : ∀ item, s.auditTask = .sending .http item → httpUrl ≠ ""

theorem new_configured (httpUrl lokiUrl : String) :
    (new httpUrl lokiUrl : AuditShipper F).Configured httpUrl lokiUrl :=
  ⟨rfl, rfl, fun _ => rfl, nofun⟩

variable {httpUrl lokiUrl : String} {s s' : AuditShipper F}

theorem auditAdd_configured (h : s.Configured httpUrl lokiUrl)
    (item : AuditItem F) : (s.auditAdd item).Configured httpUrl lokiUrl := by
  refine ⟨h.http, h.loki, ?_, h.sends⟩
  intro habsent
  change s.auditQueue.map _ = none
  rw [h.idle habsent]
  rfl

/-- An event changes the list of events, and may make the worker. -/
theorem eventAdd_cases [PyFloat F] (s : AuditShipper F) (call : EventAdd F) :
    ∃ log, s.eventAdd call = { s with log := log } ∨
      s.auditTask = .absent ∧ s.eventAdd call =
        { s with
          log := log
          auditQueue := some (.new 5000 (AuditItem F))
          auditTask := .waiting } := by
  unfold eventAdd
  cases s.log.throttled call with
  | true => exact ⟨s.log, .inl rfl⟩
  | false =>
      refine ⟨s.log.eventAdd call, ?_⟩
      unfold startWorker
      cases htask : s.auditTask with
      | absent =>
          by_cases hurl : s.auditHttpUrl ≠ "" ∨ s.auditLokiUrl ≠ ""
          · exact .inr ⟨rfl, by simp [hurl]⟩
          · exact .inl (by simp [hurl])
      | waiting => exact .inl (by simp)
      | sending used item => exact .inl (by simp)

theorem eventAdd_configured [PyFloat F]
    (h : s.Configured httpUrl lokiUrl) (call : EventAdd F) :
    (s.eventAdd call).Configured httpUrl lokiUrl := by
  obtain ⟨log, hsame | ⟨-, hstarts⟩⟩ := s.eventAdd_cases call
  · rw [hsame]
    exact ⟨h.http, h.loki, h.idle, h.sends⟩
  · rw [hstarts]
    exact ⟨h.http, h.loki, nofun, nofun⟩

theorem sendLoki_configured (hhttp : s.auditHttpUrl = httpUrl)
    (hloki : s.auditLokiUrl = lokiUrl) (item : AuditItem F) :
    (s.sendLoki item).Configured httpUrl lokiUrl := by
  refine ⟨hhttp, hloki, ?_, ?_⟩
  · intro habsent
    simp only [sendLoki] at habsent
    split_ifs at habsent
  · intro other hsending
    simp only [sendLoki] at hsending
    split_ifs at hsending
    cases hsending

theorem sendHttp_configured (hhttp : s.auditHttpUrl = httpUrl)
    (hloki : s.auditLokiUrl = lokiUrl) (item : AuditItem F) :
    (s.sendHttp item).Configured httpUrl lokiUrl := by
  unfold sendHttp
  split_ifs with hurl
  · exact ⟨hhttp, hloki, nofun, fun _ _ => hhttp ▸ hurl⟩
  · exact sendLoki_configured hhttp hloki item

theorem close_configured (h : s.Configured httpUrl lokiUrl) :
    s.close.Configured httpUrl lokiUrl := by
  unfold close
  split
  · exact h
  · exact ⟨h.http, h.loki, fun _ => rfl, nofun⟩

/-- What a wait of the worker ends with. -/
theorem take_eq_some (htake : s.take = some s') :
    s.auditTask = .waiting ∧ ∃ item q, s.queued = item :: q.items ∧
      s' = { s with auditQueue := some q }.sendHttp item := by
  unfold take at htake
  split at htake
  · obtain ⟨q, hq, htake⟩ := Option.bind_eq_some_iff.mp htake
    obtain ⟨⟨item, rest⟩, hget, htake⟩ := Option.bind_eq_some_iff.mp htake
    refine ⟨by assumption, item, rest, ?_, (Option.some.inj htake).symm⟩
    rw [queued, hq]
    exact AsyncQueue.getNowait_eq_some.mp hget
  · cases htake

theorem step_configured [PyFloat F] {event : ShipEvent F}
    (h : s.Configured httpUrl lokiUrl) (hstep : s.step event = some s') :
    s'.Configured httpUrl lokiUrl := by
  cases event with
  | audit item =>
      obtain rfl := Option.some.inj hstep
      exact auditAdd_configured h item
  | event call =>
      obtain rfl := Option.some.inj hstep
      exact eventAdd_configured h call
  | close =>
      obtain rfl := Option.some.inj hstep
      exact close_configured h
  | take =>
      obtain ⟨-, item, q, -, rfl⟩ := take_eq_some hstep
      exact sendHttp_configured (s := { s with auditQueue := some q })
        h.http h.loki item
  | sent ok =>
      simp only [step, sent] at hstep
      split at hstep
      · obtain rfl := Option.some.inj hstep
        split_ifs
        · exact sendLoki_configured h.http h.loki _
        · exact ⟨h.http, h.loki, nofun, nofun⟩
      · obtain rfl := Option.some.inj hstep
        exact ⟨h.http, h.loki, nofun, nofun⟩
      · cases hstep

/-! ## The two stages -/

/-- The worker is not stopped, and the queue has room. -/
def Roomy (s : AuditShipper F) (event : ShipEvent F) : Prop :=
  event ≠ .close ∧ ∀ q, s.auditQueue = some q → q.full = false

/-- What the first endpoint has still to get. -/
def pending (s : AuditShipper F) : List (AuditItem F) :=
  s.sending (first s.auditHttpUrl) ++ s.queued

@[simp] theorem sending_sendLoki (s : AuditShipper F) (item : AuditItem F) :
    (s.sendLoki item).sending .loki =
      if s.auditLokiUrl ≠ "" then [item] else [] := by
  unfold sendLoki sending
  by_cases hurl : s.auditLokiUrl ≠ ""
  · simp [hurl]
  · simp [hurl]

@[simp] theorem sending_http_sendLoki (s : AuditShipper F)
    (item : AuditItem F) : (s.sendLoki item).sending .http = [] := by
  unfold sendLoki sending
  by_cases hurl : s.auditLokiUrl ≠ ""
  · simp [hurl]
  · simp [hurl]

theorem pending_auditAdd (s : AuditShipper F) (item : AuditItem F) :
    (s.auditAdd item).pending = s.pending ++ s.offers (.audit item) ∨
      (s.auditAdd item).pending = s.pending ∧ ¬ s.Roomy (.audit item) := by
  have hsplit : (s.auditAdd item).pending =
      s.sending (first s.auditHttpUrl) ++ (s.auditAdd item).queued := rfl
  rw [hsplit]
  unfold pending offers
  cases hqueue : s.auditQueue with
  | none => simp [queued, auditAdd, hqueue]
  | some q =>
      cases hput : q.putNowait item with
      | some q' =>
          left
          simp [queued, auditAdd, hqueue, hput,
            AsyncQueue.putNowait_items hput]
      | none =>
          right
          refine ⟨by simp [queued, auditAdd, hqueue, hput], ?_⟩
          rintro ⟨-, hroom⟩
          have hfull := hroom q hqueue
          simp [AsyncQueue.putNowait, hfull] at hput

theorem pending_eventAdd [PyFloat F] (h : s.Configured httpUrl lokiUrl)
    (call : EventAdd F) : (s.eventAdd call).pending = s.pending := by
  obtain ⟨log, hsame | ⟨habsent, hstarts⟩⟩ := s.eventAdd_cases call
  · rw [hsame]
    rfl
  · rw [hstarts]
    simp [pending, sending, queued, habsent, h.idle habsent, AsyncQueue.new]

theorem pending_take (h : s.Configured httpUrl lokiUrl)
    (hurl : httpUrl ≠ "" ∨ lokiUrl ≠ "") (htake : s.take = some s') :
    s'.pending = s.pending := by
  obtain ⟨hwaiting, item, q, hqueued, rfl⟩ := take_eq_some htake
  have hnone : s.pending = s.queued := by
    simp [pending, sending, hwaiting]
  rw [hnone, hqueued]
  unfold sendHttp
  dsimp only
  split_ifs with hhttp
  · have hfirst : first s.auditHttpUrl = .http := if_pos hhttp
    simp [pending, sending, queued, hfirst]
  · have hloki : s.auditLokiUrl ≠ "" := by
      rw [h.loki]
      exact hurl.resolve_left (h.http ▸ hhttp)
    have hfirst : first s.auditHttpUrl = .loki := if_neg hhttp
    simp [pending, sendLoki, sending, queued, hfirst, hloki]

theorem pending_sent (h : s.Configured httpUrl lokiUrl) {ok : Bool}
    (hsent : s.sent ok = some s') :
    s.posts (first httpUrl) (.sent ok) ++ s'.pending = s.pending := by
  obtain rfl := h.http
  unfold sent at hsent
  split at hsent
  · rename_i item hsending
    have hfirst : first s.auditHttpUrl = .http :=
      if_pos (h.sends item hsending)
    obtain rfl := Option.some.inj hsent
    split_ifs
    · have hpending : (s.sendLoki item).pending =
          (s.sendLoki item).sending (first s.auditHttpUrl) ++ s.queued := rfl
      rw [hpending, hfirst, sending_http_sendLoki]
      simp [posts, pending, sending, hsending, hfirst]
    · simp [posts, pending, sending, queued, hsending, hfirst]
  · rename_i item hsending
    obtain rfl := Option.some.inj hsent
    by_cases hfirst : first s.auditHttpUrl = .loki
    · simp [posts, pending, sending, queued, hsending, hfirst]
    · simp [posts, pending, sending, queued, hsending, Ne.symm hfirst]
  · cases hsent

theorem pending_close (s : AuditShipper F) :
    s.close.pending.Sublist s.pending := by
  unfold close
  split
  · exact List.Sublist.refl _
  · exact List.nil_sublist _

theorem sending_eventAdd [PyFloat F] (s : AuditShipper F)
    (call : EventAdd F) (endpoint : AuditEndpoint) :
    (s.eventAdd call).sending endpoint = s.sending endpoint := by
  obtain ⟨log, hsame | ⟨habsent, hstarts⟩⟩ := s.eventAdd_cases call
  · rw [hsame]
    rfl
  · rw [hstarts]
    simp [sending, habsent]

/-- What a step posts and then has still to post is what there was to post and
what the step adds, but for a record without room and at the end. -/
theorem step_first [PyFloat F] (h : s.Configured httpUrl lokiUrl)
    (hurl : httpUrl ≠ "" ∨ lokiUrl ≠ "") {event : ShipEvent F}
    (hstep : s.step event = some s') :
    s.posts (first httpUrl) event ++ s'.pending =
        s.pending ++ s.offers event ∨
      (s.posts (first httpUrl) event ++ s'.pending).Sublist
        (s.pending ++ s.offers event) ∧ ¬ s.Roomy event := by
  cases event with
  | audit item =>
      obtain rfl := Option.some.inj hstep
      rcases s.pending_auditAdd item with heq | ⟨heq, hfull⟩
      · exact .inl heq
      · refine .inr ⟨?_, hfull⟩
        rw [heq]
        exact List.sublist_append_left _ _
  | event call =>
      obtain rfl := Option.some.inj hstep
      left
      simpa [posts, offers] using pending_eventAdd h call
  | take =>
      left
      simpa [posts, offers] using pending_take h hurl hstep
  | sent ok =>
      left
      simpa [offers] using pending_sent h hstep
  | close =>
      obtain rfl := Option.some.inj hstep
      refine .inr ⟨?_, fun hroom => hroom.1 rfl⟩
      simpa [posts, offers] using s.pending_close

/-- The second endpoint has what the first has taken, in its order. -/
theorem step_second [PyFloat F] (h : s.Configured httpUrl lokiUrl)
    (hhttp : httpUrl ≠ "") {event : ShipEvent F}
    (hstep : s.step event = some s') :
    s.posts .loki event ++ s'.sending .loki =
        s.sending .loki ++ s.delivers .http event ∨
      (s.posts .loki event ++ s'.sending .loki).Sublist
          (s.sending .loki ++ s.delivers .http event) ∧
        (lokiUrl = "" ∨ event = .close) := by
  cases event with
  | audit item =>
      obtain rfl := Option.some.inj hstep
      left
      simp [posts, delivers, sending, auditAdd]
  | event call =>
      obtain rfl := Option.some.inj hstep
      left
      simpa [posts, delivers] using s.sending_eventAdd call .loki
  | take =>
      obtain ⟨hwaiting, item, q, -, rfl⟩ := take_eq_some hstep
      left
      have hset : s.auditHttpUrl ≠ "" := h.http ▸ hhttp
      simp [posts, delivers, sending, sendHttp, hset, hwaiting]
  | sent ok =>
      simp only [step, sent] at hstep
      split at hstep
      · rename_i item hsending
        obtain rfl := Option.some.inj hstep
        cases ok with
        | false =>
            left
            simp [posts, delivers, sending, hsending]
        | true =>
            simp only [if_true, sending_sendLoki]
            by_cases hloki : s.auditLokiUrl = ""
            · right
              refine ⟨?_, .inl (h.loki ▸ hloki)⟩
              simp [posts, delivers, sending, hsending, hloki]
            · left
              simp [posts, delivers, sending, hsending, hloki]
      · rename_i item hsending
        obtain rfl := Option.some.inj hstep
        left
        cases ok <;> simp [posts, delivers, sending, hsending]
      · cases hstep
  | close =>
      obtain rfl := Option.some.inj hstep
      refine .inr ⟨?_, .inr rfl⟩
      simp only [posts, delivers, List.nil_append, List.append_nil]
      unfold close
      split
      · exact List.Sublist.refl _
      · exact List.nil_sublist _

/-! ## Runs -/

/-- The records of the audit from the first event on. -/
def sinceFirstEvent (events : List (ShipEvent F)) : List (AuditItem F) :=
  (events.dropWhile fun e => !e.isEvent).filterMap ShipEvent.record?

section Runs

variable [PyFloat F] {events : List (ShipEvent F)}

theorem step_queue {event : ShipEvent F} (hqueue : s.auditQueue.isSome)
    (hclose : event ≠ .close) (hstep : s.step event = some s') :
    s'.auditQueue.isSome := by
  cases event with
  | audit item =>
      obtain rfl := Option.some.inj hstep
      simpa [auditAdd] using hqueue
  | event call =>
      obtain rfl := Option.some.inj hstep
      obtain ⟨log, hsame | ⟨-, hstarts⟩⟩ := s.eventAdd_cases call
      · rw [hsame]
        exact hqueue
      · rw [hstarts]
        rfl
  | take =>
      obtain ⟨-, item, q, -, rfl⟩ := take_eq_some hstep
      unfold sendHttp
      split_ifs
      · rfl
      · rfl
  | sent ok =>
      simp only [step, sent] at hstep
      split at hstep
      · obtain rfl := Option.some.inj hstep
        split_ifs
        · exact hqueue
        · exact hqueue
      · obtain rfl := Option.some.inj hstep
        exact hqueue
      · cases hstep
  | close => exact absurd rfl hclose

omit [PyFloat F] in
theorem offers_of_queue (hqueue : s.auditQueue.isSome)
    (event : ShipEvent F) : s.offers event = event.record?.toList := by
  cases event with
  | audit item => exact if_pos hqueue
  | event | take | sent | close => rfl

omit [PyFloat F] in
theorem filterMap_record?_cons (event : ShipEvent F)
    (events : List (ShipEvent F)) :
    (event :: events).filterMap ShipEvent.record? =
      event.record?.toList ++ events.filterMap ShipEvent.record? := by
  cases event with
  | audit | event | take | sent | close => rfl

theorem offers_sublist (hrun : run step s events = some s') :
    (outputs step offers s events).Sublist
      (events.filterMap ShipEvent.record?) := by
  induction events generalizing s with
  | nil => exact List.Sublist.refl _
  | cons event events ih =>
      rcases run_cons_eq_some.mp hrun with ⟨next, hnext, hrest⟩
      rw [outputs_cons hnext, filterMap_record?_cons]
      refine List.Sublist.append ?_ (ih hrest)
      cases hqueue : s.auditQueue.isSome with
      | true => rw [offers_of_queue hqueue]
      | false =>
          cases event with
          | audit item => simp [offers, hqueue]
          | event | take | sent | close => exact List.nil_sublist _

theorem offers_eq (hqueue : s.auditQueue.isSome)
    (hmeet : StepsMeet step Roomy s events)
    (hrun : run step s events = some s') :
    outputs step offers s events = events.filterMap ShipEvent.record? := by
  induction events generalizing s with
  | nil => rfl
  | cons event events ih =>
      rcases run_cons_eq_some.mp hrun with ⟨next, hnext, hrest⟩
      rw [outputs_cons hnext, filterMap_record?_cons,
        offers_of_queue hqueue]
      congr 1
      exact ih (step_queue hqueue hmeet.1.1 hnext) (hmeet.2 next hnext) hrest

/-- Before the first event the records go by. -/
theorem step_new {event : ShipEvent F} (hevent : event.isEvent = false)
    (hstep : (new httpUrl lokiUrl).step event = some s) :
    s = new httpUrl lokiUrl ∧
      (new httpUrl lokiUrl).offers event = [] := by
  cases event with
  | audit item => exact ⟨(Option.some.inj hstep).symm, rfl⟩
  | close => exact ⟨(Option.some.inj hstep).symm, rfl⟩
  | event => cases hevent
  | take | sent => cases hstep

/-- The first event starts the worker. -/
theorem eventAdd_new (hurl : httpUrl ≠ "" ∨ lokiUrl ≠ "")
    (call : EventAdd F) :
    ((new httpUrl lokiUrl).eventAdd call).auditQueue.isSome := by
  have hfree : (new httpUrl lokiUrl).log.throttled call = false := rfl
  unfold eventAdd
  rw [hfree]
  simp only [Bool.false_eq_true, if_false]
  unfold startWorker
  exact if_pos hurl ▸ rfl

theorem offers_new_sublist
    (hrun : run step (new httpUrl lokiUrl) events = some s) :
    (outputs step offers (new httpUrl lokiUrl) events).Sublist
      (sinceFirstEvent events) := by
  induction events with
  | nil => exact List.Sublist.refl _
  | cons event events ih =>
      cases hevent : event.isEvent with
      | true =>
          have hall : sinceFirstEvent (event :: events) =
              (event :: events).filterMap ShipEvent.record? := by
            simp [sinceFirstEvent, hevent]
          rw [hall]
          exact offers_sublist hrun
      | false =>
          have hskip : sinceFirstEvent (event :: events) =
              sinceFirstEvent events := by
            simp [sinceFirstEvent, hevent]
          rcases run_cons_eq_some.mp hrun with ⟨next, hnext, hrest⟩
          obtain ⟨rfl, hnone⟩ := step_new hevent hnext
          rw [hskip, outputs_cons hnext, hnone, List.nil_append]
          exact ih hrest

theorem offers_new_eq (hurl : httpUrl ≠ "" ∨ lokiUrl ≠ "")
    (hmeet : StepsMeet step Roomy (new httpUrl lokiUrl) events)
    (hrun : run step (new httpUrl lokiUrl) events = some s) :
    outputs step offers (new httpUrl lokiUrl) events =
      sinceFirstEvent events := by
  induction events with
  | nil => rfl
  | cons event events ih =>
      rcases run_cons_eq_some.mp hrun with ⟨next, hnext, hrest⟩
      cases hevent : event.isEvent with
      | true =>
          have hall : sinceFirstEvent (event :: events) =
              (event :: events).filterMap ShipEvent.record? := by
            simp [sinceFirstEvent, hevent]
          cases event with
          | event call =>
              obtain rfl := Option.some.inj hnext
              rw [hall, outputs_cons hnext, filterMap_record?_cons]
              congr 1
              exact offers_eq (eventAdd_new hurl call)
                (hmeet.2 _ hnext) hrest
          | audit | take | sent | close => cases hevent
      | false =>
          have hskip : sinceFirstEvent (event :: events) =
              sinceFirstEvent events := by
            simp [sinceFirstEvent, hevent]
          obtain ⟨rfl, hnone⟩ := step_new hevent hnext
          rw [hskip, outputs_cons hnext, hnone, List.nil_append]
          exact ih (hmeet.2 _ hnext) hrest

end Runs

theorem pending_new (httpUrl lokiUrl : String) :
    (new httpUrl lokiUrl : AuditShipper F).pending = [] := rfl

/-- In every run the first endpoint gets records of the audit in their order,
none from before the first event, and the second only what the first has
taken.  As long as the queue has room and the worker is not stopped, the first
gets every record from the first event on. -/
theorem run_ships [PyFloat F] {events : List (ShipEvent F)}
    (hurl : httpUrl ≠ "" ∨ lokiUrl ≠ "")
    (hrun : run step (new httpUrl lokiUrl) events = some s) :
    (outputs step (posts (first httpUrl)) (new httpUrl lokiUrl)
        events).Sublist (sinceFirstEvent events) ∧
      (httpUrl ≠ "" →
        (outputs step (posts .loki) (new httpUrl lokiUrl) events).Sublist
          (outputs step (delivers .http) (new httpUrl lokiUrl) events)) ∧
      (StepsMeet step Roomy (new httpUrl lokiUrl) events →
        sinceFirstEvent events =
          outputs step (posts (first httpUrl)) (new httpUrl lokiUrl) events ++
            s.pending ∧
        (httpUrl ≠ "" → lokiUrl ≠ "" →
          outputs step (delivers .http) (new httpUrl lokiUrl) events =
            outputs step (posts .loki) (new httpUrl lokiUrl) events ++
              s.sending .loki)) := by
  have hnew := new_configured (F := F) httpUrl lokiUrl
  have hany {state : AuditShipper F} {later : List (ShipEvent F)} :
      StepsMeet step (fun _ _ => True) state later :=
    .of_forall fun _ _ _ => trivial
  refine ⟨?_, ?_, ?_⟩
  · have hkeeps : (outputs step (posts (first httpUrl)) (new httpUrl lokiUrl)
        events ++ s.pending).Sublist
        ((new httpUrl lokiUrl).pending ++
          outputs step offers (new httpUrl lokiUrl) events) := by
      refine keeping_sublist.run ?_ hnew hany hrun
      intro state event next hconf _ hstep
      refine ⟨step_configured hconf hstep, ?_⟩
      rcases step_first hconf hurl hstep with heq | ⟨hsub, -⟩
      · exact heq ▸ List.Sublist.refl _
      · exact hsub
    rw [pending_new, List.nil_append] at hkeeps
    exact ((List.sublist_append_left _ _).trans hkeeps).trans
      (offers_new_sublist hrun)
  · intro hhttp
    have hkeeps : (outputs step (posts .loki) (new httpUrl lokiUrl)
        events ++ s.sending .loki).Sublist
        ((new httpUrl lokiUrl).sending .loki ++
          outputs step (delivers .http) (new httpUrl lokiUrl) events) := by
      refine keeping_sublist.run ?_ hnew hany hrun
      intro state event next hconf _ hstep
      refine ⟨step_configured hconf hstep, ?_⟩
      rcases step_second hconf hhttp hstep with heq | ⟨hsub, -⟩
      · exact heq ▸ List.Sublist.refl _
      · exact hsub
    exact (List.sublist_append_left _ _).trans hkeeps
  · intro hmeet
    constructor
    · have hkeeps := keeping_eq.run (fun state event next hconf hroom hstep =>
        ⟨step_configured hconf hstep,
          (step_first hconf hurl hstep).resolve_right fun h => h.2 hroom⟩)
        hnew hmeet hrun
      rw [pending_new, List.nil_append] at hkeeps
      rw [hkeeps, offers_new_eq hurl hmeet hrun]
    · intro hhttp hloki
      have hkeeps := keeping_eq.run (fun state event next hconf hroom hstep =>
        ⟨step_configured hconf hstep,
          (step_second hconf hhttp hstep).resolve_right fun h =>
            h.2.elim hloki hroom.1⟩)
        hnew hmeet hrun
      exact hkeeps.symm

def auditRecord (action : String) : AuditItem ℚ where
  ts := 0
  action := action
  clientIp := "10.0.0.1"
  traceId := ""
  ok := true
  detail := []

/-- Two records, with the first event between them. -/
def twoRecords : List (ShipEvent ℚ) :=
  [.audit (auditRecord "disable"), .event (EventLog.noFixAt 1),
    .audit (auditRecord "enable"), .take, .sent true]

theorem run_ships_twoRecords :
    (outputs step (posts (first "http://logs")) (new "http://logs" "")
      twoRecords).Sublist (sinceFirstEvent twoRecords) :=
  (run_ships (.inl (by decide)) rfl).1

end AuditShipper

end BabilCors
