import BabilCors.IotRelay

/-!
# The streams of a relay

Every handler that has not ended is a subscriber and the other way round.  So
a fan-out finds a queue of 64 places under each of its references, raises
nothing and takes nobody off the list.  What happens to a handler are then the
envelopes that are published and what it does itself, and its queue keeps the
newest of them.
-/

namespace BabilCors

open DropOldest TransitionRuns

/-- What happens to a relay: its hub passes it an item, or a step of its own
tasks. -/
inductive RelayInput where
  | put (item : RelayItem)
  | own (event : RelayEvent)
  deriving DecidableEq, Repr

namespace StreamHandler

def offered (h : StreamHandler) (envelope : Bytes) : StreamHandler :=
  if h.ended then h else { h with q := (h.q.offer envelope).1 }

def taken (h : StreamHandler) : StreamHandler :=
  match h.q.getNowait with
  | none => h
  | some (data, rest) =>
      { h with q := rest, received := h.received ++ [data] }

/-- What an input is to the handler itself. -/
def acts (q : ℕ) (h : StreamHandler) : RelayInput → StreamHandler
  | .own (.get r) => if r = q then h.taken else h
  | .own (.unsubscribe r) => if r = q then { h with ended := true } else h
  | _ => h

/-- The handler after an input that publishes these envelopes. -/
def after (q : ℕ) (published : List Bytes) (h : StreamHandler)
    (input : RelayInput) : StreamHandler :=
  (published.foldl offered h).acts q input

@[simp] theorem offered_ended (h : StreamHandler) (envelope : Bytes) :
    (h.offered envelope).ended = h.ended := by
  unfold offered
  split_ifs <;> rfl

@[simp] theorem foldl_offered_ended (h : StreamHandler)
    (published : List Bytes) :
    (published.foldl offered h).ended = h.ended := by
  induction published generalizing h with
  | nil => rfl
  | cons envelope rest ih => rw [List.foldl_cons, ih, offered_ended]

@[simp] theorem taken_ended (h : StreamHandler) :
    h.taken.ended = h.ended := by
  unfold taken
  split <;> rfl

/-- Only its own `finally` ends a handler. -/
theorem after_ended (q : ℕ) (published : List Bytes) (h : StreamHandler)
    (input : RelayInput) :
    (h.after q published input).ended = true ↔
      h.ended = true ∨ input = .own (.unsubscribe q) := by
  unfold after acts
  split
  · split_ifs <;> simp
  · split_ifs with hr <;> simp [hr]
  next hother =>
    have hne : input ≠ .own (.unsubscribe q) := hother q
    simp [hne]

/-- Of the envelopes so far, what the handler has of those from before its end
is kept. -/
def Follows (log : List Bytes) (h : StreamHandler) : Prop :=
  ∃ seen later first taken, log = seen ++ later ∧
    (h.ended = false → later = []) ∧
    Kept 64 seen h.q.items h.received first taken

namespace Follows

variable {log : List Bytes} {h : StreamHandler}

theorem new : StreamHandler.new.Follows [] :=
  ⟨[], [], 0, [], rfl, fun _ => rfl, Kept.nil 64⟩

theorem offered (hfollows : h.Follows log) (envelope : Bytes) :
    (h.offered envelope).Follows (log ++ [envelope]) := by
  obtain ⟨seen, later, first, taken, hlog, hlater, hkept⟩ := hfollows
  unfold StreamHandler.offered
  split_ifs with hended
  · refine ⟨seen, later ++ [envelope], first, taken, ?_, ?_, hkept⟩
    · rw [hlog, List.append_assoc]
    · intro hlive
      rw [hended] at hlive
      cases hlive
  · -- up to now it has seen every envelope, and now it sees this one
    have hnil := hlater (Bool.eq_false_of_not_eq_true hended)
    obtain ⟨q', hoffer, hitems⟩ := AsyncQueue.offer_spec (by decide) h.q
      envelope
    obtain ⟨first', hkept'⟩ := hkept.push (by decide) envelope
    refine ⟨seen ++ [envelope], [], first', taken, ?_, fun _ => rfl, ?_⟩
    · rw [hlog, hnil, List.append_nil, List.append_nil]
    · rw [hoffer, hitems]
      exact hkept'

theorem foldl_offered (hfollows : h.Follows log) (published : List Bytes) :
    (published.foldl StreamHandler.offered h).Follows (log ++ published) := by
  induction published generalizing log h with
  | nil =>
      rw [List.append_nil]
      exact hfollows
  | cons envelope rest ih =>
      rw [List.foldl_cons, ← List.singleton_append, ← List.append_assoc]
      exact ih (hfollows.offered envelope)

theorem taken (hfollows : h.Follows log) : h.taken.Follows log := by
  obtain ⟨seen, later, first, taken, hlog, hlater, hkept⟩ := hfollows
  unfold StreamHandler.taken
  cases htake : h.q.getNowait with
  | none => exact ⟨seen, later, first, taken, hlog, hlater, hkept⟩
  | some out =>
      rw [AsyncQueue.getNowait_eq_some.mp htake] at hkept
      exact ⟨seen, later, first + 1, taken ++ [first], hlog, hlater,
        hkept.take⟩

theorem acts (hfollows : h.Follows log) (q : ℕ) (input : RelayInput) :
    (h.acts q input).Follows log := by
  unfold StreamHandler.acts
  split
  · split_ifs
    · exact hfollows.taken
    · exact hfollows
  · split_ifs
    · obtain ⟨seen, later, first, taken, hlog, -, hkept⟩ := hfollows
      exact ⟨seen, later, first, taken, hlog, nofun, hkept⟩
    · exact hfollows
  · exact hfollows

end Follows

end StreamHandler

namespace IoTRelay

def receive (lib : ProtobufLib) (s : IoTRelay) :
    RelayInput → Option IoTRelay
  | .put item => some (s.put item)
  | .own event => s.step lib event

def publishedBy (s : IoTRelay) : RelayInput → List Bytes
  | .own .published =>
      match s.task with
      | .publishing envelope => [envelope]
      | _ => []
  | _ => []

/-- The envelopes that the loop publishes in a run. -/
def published (lib : ProtobufLib) (s : IoTRelay) (inputs : List RelayInput) :
    List Bytes :=
  outputs (receive lib) publishedBy s inputs

variable {lib : ProtobufLib} {s s' : IoTRelay} {q : ℕ} {h : StreamHandler}

theorem publishedBy_eq_nil (htask : ∀ e, s.task ≠ .publishing e)
    (input : RelayInput) : s.publishedBy input = [] := by
  unfold publishedBy
  split
  · split
    next envelope hpublishing => exact (htask envelope hpublishing).elim
    · rfl
  · rfl

/-! ## Subscribers and handlers -/

/-- The subscribers are the queues of the handlers that have not ended, each
once. -/
structure Connected (s : IoTRelay) : Prop where
  nodup : s.subscribers.Nodup
  live : ∀ q, q ∈ s.subscribers ↔ ∃ h, s.handler? q = some h

theorem handler?_eq_some :
    s.handler? q = some h ↔ s.handlers[q]? = some h ∧ h.ended = false := by
  simp [handler?, Option.filter_eq_some_iff]

theorem connected_new (mountpoint : String) : (new mountpoint).Connected where
  nodup := List.nodup_nil
  live q := by simp [new, handler?]

/-- The loop gets through: nobody is dead, and each reference once has its
queue offered the envelope once. -/
theorem fanOutLoop_spec (envelope : Bytes) {refs : List ℕ}
    (hnodup : refs.Nodup) (handlers : List StreamHandler) :
    (fanOutLoop envelope refs handlers).2 = [] ∧
      ∀ q, (fanOutLoop envelope refs handlers).1[q]? =
        if q ∈ refs then
          handlers[q]?.map fun h => { h with q := (h.q.offer envelope).1 }
        else handlers[q]? := by
  induction refs generalizing handlers with
  | nil => exact ⟨rfl, fun _ => rfl⟩
  | cons first rest ih =>
      obtain ⟨hfirst, hrest⟩ := List.nodup_cons.mp hnodup
      unfold fanOutLoop
      cases hh : handlers[first]? with
      | none =>
          obtain ⟨hdead, hvalues⟩ := ih hrest handlers
          refine ⟨hdead, ?_⟩
          intro q
          rw [hvalues q]
          by_cases hq : q = first
          · rw [hq, if_neg hfirst, if_pos List.mem_cons_self, hh]
            rfl
          · simp [hq]
      | some h =>
          obtain ⟨q', hoffer, -⟩ := AsyncQueue.offer_spec (by decide) h.q
            envelope
          -- the rest of the loop does not come to this queue again
          obtain ⟨hdead, hvalues⟩ :=
            ih hrest (handlers.set first { h with q := q' })
          simp only [hoffer, if_true]
          refine ⟨hdead, ?_⟩
          intro q
          rw [hvalues q]
          by_cases hq : q = first
          · have hlt : first < handlers.length :=
              (List.getElem?_eq_some_iff.mp hh).1
            rw [hq, if_neg hfirst, if_pos List.mem_cons_self, hh,
              List.getElem?_set_self hlt, Option.map_some, hoffer]
          · rw [List.getElem?_set_ne (Ne.symm hq)]
            simp [hq]

namespace Connected

theorem not_ended (hs : s.Connected) (hh : s.handlers[q]? = some h) :
    q ∈ s.subscribers ↔ h.ended = false := by
  rw [hs.live q]
  simp [handler?_eq_some, hh]

theorem fanOut (hs : s.Connected) (envelope : Bytes) :
    s.fanOut envelope =
      { s with handlers := s.handlers.map (·.offered envelope) } := by
  obtain ⟨hdead, hvalues⟩ :=
    fanOutLoop_spec envelope hs.nodup s.handlers
  have hhandlers : (fanOutLoop envelope s.subscribers s.handlers).1 =
      s.handlers.map (·.offered envelope) := by
    apply List.ext_getElem?
    intro q
    rw [hvalues q, List.getElem?_map]
    cases hh : s.handlers[q]? with
    | none => simp
    | some h =>
        have hlive := hs.not_ended hh
        rw [Option.map_some, Option.map_some, StreamHandler.offered]
        by_cases hended : h.ended
        · have hdropped : q ∉ s.subscribers := by simp [hlive, hended]
          rw [if_neg hdropped, if_pos hended]
        · rw [if_pos (hlive.mpr (Bool.eq_false_of_not_eq_true hended)),
            if_neg hended]
  unfold IoTRelay.fanOut
  simp only [hdead, hhandlers, List.foldl_nil]

/-- The list is the same, and so are the handlers that have not ended. -/
theorem of_live (hs : s.Connected)
    (hsubscribers : s'.subscribers = s.subscribers)
    (hlive : ∀ q, (∃ h, s'.handler? q = some h) ↔ ∃ h, s.handler? q = some h) :
    s'.Connected := by
  constructor
  · rw [hsubscribers]
    exact hs.nodup
  · intro q
    rw [hsubscribers, hs.live q, hlive q]

theorem subscribe (hs : s.Connected) : s.subscribe.Connected := by
  have hfresh : s.handlers.length ∉ s.subscribers := by
    rw [hs.live]
    simp [handler?]
  constructor
  · exact List.nodup_append.mpr ⟨hs.nodup, List.nodup_singleton _, by
      intro r hr r' hr'
      rw [List.mem_singleton.mp hr']
      rintro rfl
      exact hfresh hr⟩
  · intro q
    have hhandlers : s.subscribe.handlers = s.handlers ++ [.new] := rfl
    have hsubscribers : s.subscribe.subscribers =
        s.subscribers ++ [s.handlers.length] := rfl
    rw [hsubscribers, List.mem_append, List.mem_singleton, hs.live q,
      handler?, handler?, hhandlers]
    rcases lt_trichotomy q s.handlers.length with hlt | rfl | hgt
    · rw [List.getElem?_append_left hlt]
      simp [hlt.ne]
    · simp [StreamHandler.new]
    · simp [List.getElem?_append_right hgt.le, hgt.ne',
        Nat.sub_ne_zero_of_lt hgt, List.getElem?_eq_none hgt.le]

end Connected

/-! ## Steps -/

/-- What an input does to the subscribers and the handlers. -/
inductive StreamStep (s : IoTRelay) : RelayInput → IoTRelay → Prop where
  | quiet {input : RelayInput} {s' : IoTRelay}
      (hsubscribers : s'.subscribers = s.subscribers)
      (hhandlers : s'.handlers = s.handlers)
      (hpublished : s.publishedBy input = [])
      (hacts : ∀ q (h : StreamHandler), h.acts q input = h) :
      StreamStep s input s'
  | published {envelope : Bytes} (htask : s.task = .publishing envelope) :
      StreamStep s (.own .published) (s.fanOut envelope).loop
  | subscribe : StreamStep s (.own .subscribe) s.subscribe
  | get {r : ℕ} {h : StreamHandler} (hr : s.handler? r = some h) :
      StreamStep s (.own (.get r))
        { s with handlers := s.handlers.set r h.taken }
  | unsubscribe {r : ℕ} {h : StreamHandler} (hr : s.handler? r = some h) :
      StreamStep s (.own (.unsubscribe r))
        { s with
          handlers := s.handlers.set r { h with ended := true }
          subscribers := s.subscribers.erase r }

theorem get_eq_some (hget : s.get q = some s') :
    ∃ h data rest, s.handler? q = some h ∧
      h.q.getNowait = some (data, rest) ∧
      s' = { s with handlers := s.handlers.set q h.taken } := by
  obtain ⟨h, hh, hget⟩ := Option.bind_eq_some_iff.mp hget
  obtain ⟨⟨data, rest⟩, htake, hget⟩ := Option.bind_eq_some_iff.mp hget
  refine ⟨h, data, rest, hh, htake, ?_⟩
  rw [← Option.some.inj hget, StreamHandler.taken, htake]

theorem unsubscribe_eq_some (hleave : s.unsubscribe q = some s') :
    ∃ h, s.handler? q = some h ∧
      s' = { s with
        handlers := s.handlers.set q { h with ended := true }
        subscribers := s.subscribers.erase q } := by
  obtain ⟨h, hh, hleave⟩ := Option.bind_eq_some_iff.mp hleave
  exact ⟨h, hh, (Option.some.inj hleave).symm⟩

theorem published_eq_some (hstep : s.step lib .published = some s') :
    ∃ envelope, s.task = .publishing envelope ∧
      s' = (s.fanOut envelope).loop := by
  simp only [step] at hstep
  split at hstep
  next envelope htask =>
    exact ⟨envelope, htask, (Option.some.inj hstep).symm⟩
  · cases hstep

theorem receive_streamStep {input : RelayInput}
    (hstep : s.receive lib input = some s') : s.StreamStep input s' := by
  cases input with
  | put item =>
      obtain rfl := Option.some.inj hstep
      exact .quiet rfl rfl rfl fun _ _ => rfl
  | own event =>
      cases event with
      | start =>
          obtain rfl := Option.some.inj hstep
          unfold start
          split_ifs
          · exact .quiet rfl rfl rfl fun _ _ => rfl
          · exact .quiet rfl rfl rfl fun _ _ => rfl
      | take tsMs =>
          obtain ⟨-, htake⟩ := Option.ite_none_right_eq_some.mp hstep
          obtain ⟨⟨item, queue⟩, -, hs'⟩ :=
            Option.bind_eq_some_iff.mp htake
          rw [← Option.some.inj hs']
          unfold envelope
          split
          · exact .quiet rfl rfl rfl fun _ _ => rfl
          · exact .quiet rfl rfl rfl fun _ _ => rfl
      | published =>
          change s.step lib .published = _ at hstep
          obtain ⟨envelope, htask, rfl⟩ := published_eq_some hstep
          exact .published htask
      | subscribe =>
          obtain rfl := Option.some.inj hstep
          exact .subscribe
      | get r =>
          obtain ⟨h, data, rest, hr, -, rfl⟩ := get_eq_some hstep
          exact .get hr
      | unsubscribe r =>
          obtain ⟨h, hr, rfl⟩ := unsubscribe_eq_some hstep
          exact .unsubscribe hr
      | close =>
          obtain rfl := Option.some.inj hstep
          exact .quiet rfl rfl rfl fun _ _ => rfl

theorem getElem?_set_handler {r : ℕ} (hr : s.handler? r = some h)
    (new : StreamHandler) (q : ℕ) :
    (s.handlers.set r new)[q]? =
      if r = q then some new else s.handlers[q]? := by
  have hlt := (List.getElem?_eq_some_iff.mp (handler?_eq_some.mp hr).1).1
  split_ifs with hq
  · rw [← hq, List.getElem?_set_self hlt]
  · rw [List.getElem?_set_ne hq]

theorem Connected.receive {input : RelayInput} (hs : s.Connected)
    (hstep : s.receive lib input = some s') : s'.Connected := by
  cases receive_streamStep hstep with
  | quiet hsubscribers hhandlers hpublished hacts =>
      apply hs.of_live hsubscribers
      intro q
      rw [handler?, handler?, hhandlers]
  | @published envelope htask =>
      rw [hs.fanOut]
      apply hs.of_live
      · rfl
      · intro q
        simp [handler?, loop, Option.filter_map]
  | subscribe => exact hs.subscribe
  | @get r h hr =>
      have hended := (handler?_eq_some.mp hr).2
      apply hs.of_live
      · rfl
      · intro q
        simp only [handler?_eq_some, getElem?_set_handler hr]
        split_ifs with hq
        · subst hq
          constructor
          · exact fun _ => ⟨h, handler?_eq_some.mp hr⟩
          · exact fun _ => ⟨h.taken, rfl, h.taken_ended.trans hended⟩
        · rfl
  | @unsubscribe r h hr =>
      constructor
      · exact hs.nodup.erase r
      · intro q
        change q ∈ s.subscribers.erase r ↔ _
        rw [hs.nodup.mem_erase_iff, hs.live q]
        simp only [handler?_eq_some, getElem?_set_handler hr]
        split_ifs with hq
        · simp [hq]
        · simp [Ne.symm hq]

/-- One handler after one input, whatever the others are. -/
theorem receive_handler {input : RelayInput} (hs : s.Connected)
    (hstep : s.receive lib input = some s')
    (hh : s.handlers[q]? = some h) :
    s'.handlers[q]? = some (h.after q (s.publishedBy input) input) := by
  unfold StreamHandler.after
  cases receive_streamStep hstep with
  | quiet hsubscribers hhandlers hpublished hacts =>
      rw [hhandlers, hpublished, List.foldl_nil, hacts q h]
      exact hh
  | @published envelope htask =>
      rw [hs.fanOut]
      simp [loop, publishedBy, htask, StreamHandler.acts, hh]
  | subscribe =>
      have hlt : q < s.handlers.length := (List.getElem?_eq_some_iff.mp hh).1
      exact (List.getElem?_append_left hlt).trans hh
  | @get r h' hr =>
      rw [getElem?_set_handler hr]
      simp only [publishedBy, List.foldl_nil, StreamHandler.acts]
      split_ifs with hq
      · subst hq
        obtain rfl : h' = h :=
          Option.some.inj ((handler?_eq_some.mp hr).1.symm.trans hh)
        rfl
      · exact hh
  | @unsubscribe r h' hr =>
      rw [getElem?_set_handler hr]
      simp only [publishedBy, List.foldl_nil, StreamHandler.acts]
      split_ifs with hq
      · subst hq
        obtain rfl : h' = h :=
          Option.some.inj ((handler?_eq_some.mp hr).1.symm.trans hh)
        rfl
      · exact hh

/-! ## Runs -/

/-- In a run a handler keeps its place, follows what is published and is ended
by nothing but its own `finally`. -/
theorem run_handler {log : List Bytes} {inputs : List RelayInput}
    (hs : s.Connected) (hh : s.handlers[q]? = some h)
    (hfollows : h.Follows log)
    (hrun : run (receive lib) s inputs = some s') :
    s'.Connected ∧ ∃ h', s'.handlers[q]? = some h' ∧
      h'.Follows (log ++ published lib s inputs) ∧
      (h'.ended = true ↔ h.ended = true ∨ .own (.unsubscribe q) ∈ inputs) := by
  induction inputs generalizing s h log with
  | nil =>
      obtain rfl := Option.some.inj hrun
      exact ⟨hs, h, hh, by simpa [published, outputs] using hfollows, by simp⟩
  | cons input inputs ih =>
      obtain ⟨next, hnext, hrest⟩ := run_cons_eq_some.mp hrun
      have hfollows' : (h.after q (s.publishedBy input) input).Follows
          (log ++ s.publishedBy input) :=
        (hfollows.foldl_offered (s.publishedBy input)).acts q input
      obtain ⟨hconnected, h', hh', hlog, hended⟩ :=
        ih (hs.receive hnext) (receive_handler hs hnext hh) hfollows' hrest
      refine ⟨hconnected, h', hh', ?_, ?_⟩
      · rw [published, outputs_cons hnext, ← List.append_assoc]
        exact hlog
      · rw [hended, StreamHandler.after_ended, or_assoc, List.mem_cons,
          eq_comm (a := input)]

end IoTRelay

end BabilCors
