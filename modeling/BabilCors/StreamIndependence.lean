import BabilCors.StreamSubscribers

/-!
# A stream among others

A handler could as well be the only one.  The run in which the others neither
come nor take anything nor leave publishes the same envelopes, and leaves the
handler with the same ones in its queue and behind it.
-/

namespace BabilCors

open DropOldest TransitionRuns

/-- Everything but what the handlers other than `q` do. -/
def RelayInput.concerns (q : ℕ) : RelayInput → Bool
  | .own .subscribe => false
  | .own (.get r) => r == q
  | .own (.unsubscribe r) => r == q
  | _ => true

namespace IoTRelay

variable {lib : ProtobufLib} {s s' a : IoTRelay} {q : ℕ} {h : StreamHandler}

/-! ## Without the others -/

/-- The relay without its subscribers. -/
def core (s : IoTRelay) : IoTRelay :=
  { s with subscribers := [], handlers := [] }

theorem core_start (s : IoTRelay) : s.start.core = s.core.start :=
  apply_ite core ..

theorem core_envelope (s : IoTRelay) (item : RelayItem) (tsMs : ℤ) :
    (s.envelope lib item tsMs).core = s.core.envelope lib item tsMs := by
  have hmountpoint : s.core.mountpoint = s.mountpoint := rfl
  unfold envelope
  rw [hmountpoint]
  cases lib.serialize item s.mountpoint tsMs <;> rfl

theorem core_take (s : IoTRelay) (tsMs : ℤ) :
    (s.take lib tsMs).map core = s.core.take lib tsMs := by
  have hqueue : s.core.queue = s.queue := rfl
  unfold take
  rw [hqueue]
  cases s.queue.getNowait with
  | none => rfl
  | some out =>
      exact congrArg some
        (core_envelope { s with queue := out.2 } out.1 tsMs)

/-- What concerns a handler is possible without the others as well. -/
theorem receive_core {input : RelayInput} (hs : s.Connected)
    (ha : a.Connected) (hcore : a.core = s.core)
    (hhandler : a.handlers[q]? = s.handlers[q]?)
    (hconcerns : input.concerns q = true)
    (hstep : s.receive lib input = some s') :
    ∃ a', a.receive lib input = some a' ∧ a'.core = s'.core := by
  have htask : a.core.task = s.core.task := congrArg IoTRelay.task hcore
  change a.task = s.task at htask
  have hlive : a.handler? q = s.handler? q := by
    rw [handler?, handler?, hhandler]
  cases input with
  | put item =>
      obtain rfl := Option.some.inj hstep
      exact ⟨a.put item, rfl, congrArg (put · item) hcore⟩
  | own event =>
      cases event with
      | start =>
          obtain rfl := Option.some.inj hstep
          refine ⟨a.start, rfl, ?_⟩
          rw [core_start, core_start, hcore]
      | take tsMs =>
          obtain ⟨hwaits, htake⟩ := Option.ite_none_right_eq_some.mp hstep
          have hmap : (a.take lib tsMs).map core = some s'.core := by
            rw [core_take, hcore, ← core_take, htake]
            rfl
          obtain ⟨a', htake', hcore'⟩ := Option.map_eq_some_iff.mp hmap
          refine ⟨a', ?_, hcore'⟩
          exact (if_pos (htask.trans hwaits)).trans htake'
      | published =>
          change s.step lib .published = _ at hstep
          obtain ⟨envelope, htask', rfl⟩ := published_eq_some hstep
          refine ⟨(a.fanOut envelope).loop, ?_, ?_⟩
          · simp only [receive, step, htask, htask']
          · rw [hs.fanOut, ha.fanOut]
            exact congrArg loop hcore
      | subscribe => cases hconcerns
      | get r =>
          obtain rfl : r = q := eq_of_beq hconcerns
          obtain ⟨h, data, rest, hh, htake, rfl⟩ := get_eq_some hstep
          refine ⟨{ a with handlers := a.handlers.set r h.taken }, ?_, hcore⟩
          change a.get r = _
          simp [get, hlive, hh, htake, StreamHandler.taken]
      | unsubscribe r =>
          obtain rfl : r = q := eq_of_beq hconcerns
          obtain ⟨h, hh, rfl⟩ := unsubscribe_eq_some hstep
          refine ⟨{ a with
            handlers := a.handlers.set r { h with ended := true }
            subscribers := a.subscribers.erase r }, ?_, hcore⟩
          change a.unsubscribe r = _
          simp [unsubscribe, hlive, hh, removeWebsocketQueue]
      | close =>
          obtain rfl := Option.some.inj hstep
          exact ⟨a.close, rfl, congrArg close hcore⟩

theorem publishedBy_congr (hcore : a.core = s.core) (input : RelayInput) :
    a.publishedBy input = s.publishedBy input := by
  have htask : a.core.task = s.core.task := congrArg IoTRelay.task hcore
  change a.task = s.task at htask
  unfold publishedBy
  rw [htask]

/-- What concerns only other handlers publishes nothing and leaves the core
alone. -/
theorem receive_others {input : RelayInput}
    (hothers : input.concerns q = false)
    (hstep : s.receive lib input = some s') :
    s'.core = s.core ∧ s.publishedBy input = [] ∧
      ∀ h : StreamHandler, h.acts q input = h := by
  cases input with
  | put item => cases hothers
  | own event =>
      cases event with
      | subscribe =>
          obtain rfl := Option.some.inj hstep
          exact ⟨rfl, rfl, fun _ => rfl⟩
      | get r =>
          obtain ⟨h, data, rest, -, -, rfl⟩ := get_eq_some hstep
          exact ⟨rfl, rfl, fun _ => if_neg (ne_of_beq_false hothers)⟩
      | unsubscribe r =>
          obtain ⟨h, -, rfl⟩ := unsubscribe_eq_some hstep
          exact ⟨rfl, rfl, fun _ => if_neg (ne_of_beq_false hothers)⟩
      | start => cases hothers
      | take tsMs => cases hothers
      | published => cases hothers
      | close => cases hothers

/-- Two relays with the same core, and the same handler under `q`. -/
structure Agree (q : ℕ) (s a : IoTRelay) : Prop where
  among : s.Connected
  apart : a.Connected
  core : a.core = s.core
  handler : ∃ h, s.handlers[q]? = some h ∧ a.handlers[q]? = some h

/-- Only what concerns the handler. -/
def alone (q : ℕ) (input : RelayInput) : Option RelayInput :=
  Option.guard (RelayInput.concerns q) input

theorem Agree.skip {input : RelayInput} (hagree : Agree q s a)
    (hstep : s.receive lib input = some s') (hskip : alone q input = none) :
    Agree q s' a ∧ s.publishedBy input = [] := by
  obtain ⟨h, hh, hhalone⟩ := hagree.handler
  obtain ⟨hcore, hpublished, hacts⟩ :=
    receive_others (Option.guard_eq_none_iff.mp hskip) hstep
  have hnext := receive_handler hagree.among hstep hh
  rw [hpublished] at hnext
  refine ⟨⟨hagree.among.receive hstep, hagree.apart, ?_, h, ?_, hhalone⟩,
    hpublished⟩
  · rw [hcore, hagree.core]
  · rw [hnext]
    exact congrArg some (hacts h)

theorem Agree.follow {input input' : RelayInput} (hagree : Agree q s a)
    (hstep : s.receive lib input = some s')
    (hmatch : alone q input = some input') :
    ∃ a', a.receive lib input' = some a' ∧ Agree q s' a' ∧
      a.publishedBy input' = s.publishedBy input := by
  obtain ⟨rfl, hconcerns⟩ := Option.guard_eq_some_iff.mp hmatch
  obtain ⟨h, hh, hhalone⟩ := hagree.handler
  obtain ⟨a', hstep', hcore⟩ := receive_core hagree.among hagree.apart
    hagree.core (hhalone.trans hh.symm) hconcerns hstep
  have hpublished := publishedBy_congr hagree.core input
  have hnext := receive_handler hagree.among hstep hh
  have hnext' := receive_handler hagree.apart hstep' hhalone
  rw [hpublished] at hnext'
  exact ⟨a', hstep', ⟨hagree.among.receive hstep,
    hagree.apart.receive hstep', hcore, _, hnext, hnext'⟩, hpublished⟩

/-- A handler that is left alone gets what it gets among the others. -/
theorem run_alone {inputs : List RelayInput} (hs : s.Connected)
    (hh : s.handlers[q]? = some h)
    (hrun : run (receive lib) s inputs = some s') :
    ∃ a, run (receive lib) s (inputs.filter (RelayInput.concerns q)) =
        some a ∧
      a.handlers[q]? = s'.handlers[q]? ∧
      published lib s (inputs.filter (RelayInput.concerns q)) =
        published lib s inputs := by
  have hmeet : StepsMeet (receive lib) (fun _ _ => True) s inputs :=
    StepsMeet.of_forall fun _ _ _ => trivial
  have hstart : Agree q s s := ⟨hs, hs, rfl, h, hh, hh⟩
  have hfollows : ∃ a,
      run (receive lib) s (inputs.filterMap (alone q)) = some a ∧
        Agree q s' a ∧
        published lib s (inputs.filterMap (alone q)) =
          published lib s inputs := by
    apply StepsMeet.run_projects _ _ hstart hmeet hrun
    · intro state state' input next hagree _ hstep hskip
      exact hagree.skip hstep hskip
    · intro state state' input input' next hagree _ hstep hmatch
      exact hagree.follow hstep hmatch
  have hfilter : inputs.filterMap (alone q) =
      inputs.filter (RelayInput.concerns q) :=
    congrFun List.filterMap_eq_filter inputs
  rw [hfilter] at hfollows
  obtain ⟨a, hrun', hagree, hpublished⟩ := hfollows
  obtain ⟨h', hh', ha⟩ := hagree.handler
  exact ⟨a, hrun', ha.trans hh'.symm, hpublished⟩

/-- Whatever a handler that subscribes at some time and the others do
afterwards, it stays a subscriber until it unsubscribes.  Its queue holds the
last of the envelopes published since, without those that it has taken, and at
most 64 of them; an envelope is lost to it only under 64 newer ones.  It is
left alone in all this by the other handlers. -/
theorem streams_keep_newest (lib : ProtobufLib) (mountpoint : String)
    {before after : List RelayInput} {s s' : IoTRelay}
    (hbefore : run (receive lib) (new mountpoint) before = some s)
    (hafter : run (receive lib) s.subscribe after = some s') :
    let q := s.handlers.length
    let envelopes := published lib s.subscribe after
    ∃ h, s'.handlers[q]? = some h ∧
      (q ∈ s'.subscribers ↔ .own (.unsubscribe q) ∉ after) ∧
      h.q.items.length ≤ 64 ∧
      (h.received ++ h.q.items).Sublist envelopes ∧
      (∃ seen later first taken, envelopes = seen ++ later ∧
        (q ∈ s'.subscribers → later = []) ∧
        Kept 64 seen h.q.items h.received first taken) ∧
      ∃ a, run (receive lib) s.subscribe
          (after.filter (RelayInput.concerns q)) = some a ∧
        a.handlers[q]? = some h ∧
        published lib s.subscribe (after.filter (RelayInput.concerns q)) =
          envelopes := by
  intro q envelopes
  have hs : s.Connected := run_preserves
    (fun _ _ _ hstate hstep => hstate.receive hstep)
    (connected_new mountpoint) hbefore
  have hnew : s.subscribe.handlers[q]? = some .new := by
    simp [subscribe, addWebsocketQueue, q]
  obtain ⟨hs', h, hh, hfollows, hended⟩ :=
    run_handler hs.subscribe hnew .new hafter
  obtain ⟨seen, later, first, taken, hlog, hlater, hkept⟩ := hfollows
  rw [List.nil_append] at hlog
  obtain ⟨a, halone, hsame, hpublished⟩ :=
    run_alone hs.subscribe hnew hafter
  have hlive := hs'.not_ended hh
  refine ⟨h, hh, ?_, hkept.length_queue_le, ?_,
    ⟨seen, later, first, taken, hlog, ?_, hkept⟩,
    a, halone, hsame.trans hh, hpublished⟩
  · rw [hlive, ← Bool.not_eq_true, hended]
    simp [StreamHandler.new]
  · have hseen : seen.Sublist envelopes := by
      change seen.Sublist (published lib s.subscribe after)
      rw [hlog]
      exact List.sublist_append_left seen later
    exact hkept.sublist.trans hseen
  · exact fun hq => hlater (hlive.mp hq)

/-- A second handler comes, 66 frames are published, and both take one. -/
def manyEnvelopes : List RelayInput :=
  .own .subscribe :: (List.range 66).flatMap (fun n =>
    [.put ⟨[UInt8.ofNat n], 0, 0, 0⟩, .own (.take n), .own .published]) ++
      [.own (.get 1), .own (.get 0)]

/-- The first handler has lost the two oldest, and takes the third. -/
theorem streams_keep_newest_twoHandlers :
    ∃ s s', run (receive .wire) (new "M") [.own .start] = some s ∧
      run (receive .wire) s.subscribe manyEnvelopes = some s' ∧
      (published .wire s.subscribe manyEnvelopes).length = 66 ∧
      ∃ h, s'.handlers[0]? = some h ∧ h.q.items.length ≤ 64 ∧
        h.received.length = 1 ∧
        (h.received ++ h.q.items).Sublist
          (published .wire s.subscribe manyEnvelopes) := by
  have hbefore : run (receive .wire) (new "M") [.own .start] =
      some (new "M").start := rfl
  have hcount : (published .wire (new "M").start.subscribe
      manyEnvelopes).length = 66 := by
    decide +kernel
  have hview : (run (receive .wire) (new "M").start.subscribe
      manyEnvelopes).map (fun s => s.handlers.map fun h =>
        h.received.length) = some [1, 1] := by
    decide +kernel
  obtain ⟨s', hs', hlengths⟩ := Option.map_eq_some_iff.mp hview
  obtain ⟨h, hh, -, hqueue, hsublist, -⟩ :=
    streams_keep_newest .wire "M" hbefore hs'
  have hreceived : h.received.length = 1 := by
    have hfirst : (s'.handlers.map fun h => h.received.length)[0]? =
        some 1 := by
      rw [hlengths]
      rfl
    change s'.handlers[0]? = some h at hh
    rw [List.getElem?_map, hh] at hfirst
    exact Option.some.inj hfirst
  exact ⟨(new "M").start, s', hbefore, hs', hcount, h, hh, hqueue, hreceived,
    hsublist⟩

end IoTRelay

end BabilCors
