import BabilCors.AdminAudit
import BabilCors.BasicAuthentication
import BabilCors.KeyedGates
import BabilCors.LineSentences

/-!
# The event list

`_event_add` with its throttle, and `get_events`.  The calls of a run are kept
or held back by a gate with one memory for each throttle key.  The key glues
its parts with colons; the parts around the mountpoint have none, so different
sessions have different keys.
-/

namespace BabilCors

open KeyedGates Py

/-! ## The list -/

/-- A call of `_event_add` with the two clocks that it reads. -/
structure EventAdd (F : Type) where
  code : String
  mountpoint : String
  connId : Option ℕ
  user : String
  severity : String
  msg : String
  ctx : Json F
  throttleS : F
  now : F
  tsUnixMs : ℤ

structure LoggedEvent (F : Type) where
  tsUnixMs : ℤ
  code : String
  severity : String
  message : String
  mountpoint : String
  connId : Option ℕ
  user : String
  ctx : Json F

structure EventLog (F : Type) where
  eventThrottle : PyDict String F
  events : List (LoggedEvent F)

namespace EventAdd

variable {F : Type}

def connText (call : EventAdd F) : String :=
  match call.connId with
  | none => "None"
  | some n => toString n

def key (call : EventAdd F) : String :=
  call.code ++ ":" ++ call.mountpoint ++ ":" ++ call.connText ++ ":" ++
    call.user

variable [PyFloat F]

def logged (call : EventAdd F) : LoggedEvent F where
  tsUnixMs := call.tsUnixMs
  code := call.code
  severity := call.severity
  message := call.msg
  mountpoint := call.mountpoint
  connId := call.connId
  user := call.user
  ctx := call.ctx.orElse (.obj [])

end EventAdd

namespace EventLog

variable {F : Type} [PyFloat F]

def new : EventLog F where
  eventThrottle := []
  events := []

/-- Whether an event of the same key came less than the throttle before. -/
def throttled (log : EventLog F) (call : EventAdd F) : Bool :=
  (log.eventThrottle.get? call.key).any fun last =>
    PyFloat.lt (PyFloat.sub call.now last) call.throttleS

/-- `_event_add`; the list is a deque of at most five thousand. -/
def eventAdd (log : EventLog F) (call : EventAdd F) : EventLog F :=
  if log.throttled call then log
  else
    { eventThrottle := log.eventThrottle.set call.key call.now
      events := (log.events ++ [call.logged]).rtake 5000 }

def addAll (log : EventLog F) (calls : List (EventAdd F)) : EventLog F :=
  calls.foldl eventAdd log

def getEvents (log : EventLog F) (limit : ℤ) : List (LoggedEvent F) :=
  let lim := max 1 (min (if limit = 0 then 200 else limit) 2000)
  log.events.rtake lim.toNat

end EventLog

/-- The call that a rover's read loop makes for one of its events. -/
def ReadEnv.eventAdd {F : Type} (env : ReadEnv F) (call : EventCall F)
    (now : F) (tsUnixMs : ℤ) : EventAdd F where
  code := call.code
  mountpoint := env.mountpoint
  connId := some env.sessionId
  user := env.username
  severity := call.severity
  msg := call.msg
  ctx := call.ctx
  throttleS := call.throttle
  now := now
  tsUnixMs := tsUnixMs

/-! ## The throttle as a gate -/

namespace EventLog

/-- The gate of the throttle, in exact time. -/
def gate : Gate String (EventAdd ℚ) :=
  waiting EventAdd.key EventAdd.now EventAdd.throttleS

/-- The calls that are logged. -/
def kept (calls : List (EventAdd ℚ)) : List (EventAdd ℚ) :=
  gate.passed (fun _ => none) calls

/-- The dictionary has the times of what the gate remembers. -/
def Remembers (log : EventLog ℚ) (last : String → Option (EventAdd ℚ)) :
    Prop :=
  ∀ key, log.eventThrottle.get? key = (last key).map EventAdd.now

theorem Remembers.throttled {log : EventLog ℚ}
    {last : String → Option (EventAdd ℚ)} (h : log.Remembers last)
    (call : EventAdd ℚ) :
    log.throttled call = !(gate.passes last call) := by
  unfold EventLog.throttled Gate.passes
  rw [h call.key]
  change _ = !(gate.opens (last call.key) call)
  cases last call.key with
  | none => rfl
  | some earlier =>
      change decide (call.now - earlier.now < call.throttleS) =
        !decide (call.throttleS ≤ call.now - earlier.now)
      rw [← decide_not, decide_eq_decide, not_le]

theorem Remembers.eventAdd {log : EventLog ℚ}
    {last : String → Option (EventAdd ℚ)} (h : log.Remembers last)
    (call : EventAdd ℚ) :
    (log.eventAdd call).Remembers (gate.after last call) := by
  intro key
  unfold EventLog.eventAdd Gate.after
  rw [h.throttled call]
  cases hpass : gate.passes last call with
  | false => simpa using h key
  | true =>
      simp only [Bool.not_true, Bool.false_eq_true, if_false, if_true]
      have hgate : gate.key call = call.key := rfl
      rw [PyDict.get?_set, Function.update_apply, hgate]
      by_cases hkey : call.key = key
      · rw [if_pos hkey, if_pos hkey.symm]
        rfl
      · rw [if_neg hkey, if_neg (Ne.symm hkey)]
        exact h key

theorem Remembers.addAll {log : EventLog ℚ}
    {last : String → Option (EventAdd ℚ)} (h : log.Remembers last)
    (calls : List (EventAdd ℚ)) :
    (log.addAll calls).Remembers (gate.afterAll last calls) := by
  induction calls generalizing log last with
  | nil => exact h
  | cons call calls ih => exact ih (h.eventAdd call)

theorem new_remembers : (new : EventLog ℚ).Remembers fun _ => none :=
  fun _ => rfl

theorem addAll_remembers (calls : List (EventAdd ℚ)) :
    (new.addAll calls).Remembers (gate.afterAll (fun _ => none) calls) :=
  new_remembers.addAll calls

/-- One call adds its event exactly when the gate lets it pass. -/
theorem Remembers.eventAdd_events {log : EventLog ℚ}
    {last : String → Option (EventAdd ℚ)} (h : log.Remembers last)
    (hbound : log.events.length ≤ 5000) (call : EventAdd ℚ) :
    (log.eventAdd call).events =
      (log.events ++
        if gate.passes last call then [call.logged] else []).rtake 5000 := by
  unfold EventLog.eventAdd
  rw [h.throttled call]
  cases hpass : gate.passes last call with
  | false => simp [List.rtake, Nat.sub_eq_zero_of_le hbound]
  | true => simp

theorem rtake_rtake {α : Type*} {m n : ℕ} (hle : m ≤ n) (l : List α) :
    (l.rtake n).rtake m = l.rtake m := by
  rw [List.rtake_eq_reverse_take_reverse, List.rtake_eq_reverse_take_reverse,
    List.rtake_eq_reverse_take_reverse, List.reverse_reverse, List.take_take,
    min_eq_left hle]

theorem length_rtake_le {α : Type*} (n : ℕ) (l : List α) :
    (l.rtake n).length ≤ n := by
  rw [List.rtake, List.length_drop]
  omega

theorem eventAdd_length {log : EventLog ℚ}
    (hbound : log.events.length ≤ 5000) (call : EventAdd ℚ) :
    (log.eventAdd call).events.length ≤ 5000 := by
  unfold EventLog.eventAdd
  split_ifs
  · exact hbound
  · dsimp only
    exact length_rtake_le 5000 (log.events ++ [call.logged])

/-- After a run the list has the last five thousand of the calls kept. -/
theorem addAll_events_of {log : EventLog ℚ}
    {last : String → Option (EventAdd ℚ)} (h : log.Remembers last)
    (hbound : log.events.length ≤ 5000) (calls : List (EventAdd ℚ)) :
    (log.addAll calls).events =
      (log.events ++ (gate.passed last calls).map EventAdd.logged).rtake
        5000 := by
  induction calls generalizing log last with
  | nil => simp [addAll, Gate.passed, Gate.decisions, List.rtake,
      Nat.sub_eq_zero_of_le hbound]
  | cons call calls ih =>
      have hstep : log.addAll (call :: calls) =
          (log.eventAdd call).addAll calls := rfl
      rw [hstep, ih (h.eventAdd call) (eventAdd_length hbound call),
        h.eventAdd_events hbound call, NtripCaster.rtake_append_rtake,
        Gate.passed_cons, List.append_assoc]
      congr 2
      split_ifs
      · rfl
      · rfl

theorem addAll_events (calls : List (EventAdd ℚ)) :
    (new.addAll calls).events =
      ((kept calls).map EventAdd.logged).rtake 5000 := by
  exact addAll_events_of new_remembers (Nat.zero_le _) calls

/-! ## What the list shows -/

/-- A call is held back exactly when a call of the same key was logged less
than its throttle before it. -/
theorem kept_concat {before : List (EventAdd ℚ)} {call : EventAdd ℚ}
    (htimes : (before ++ [call]).Pairwise fun a b => a.now ≤ b.now) :
    kept (before ++ [call]) = kept before ++
      if ∃ earlier ∈ kept before, earlier.key = call.key ∧
        call.now - earlier.now < call.throttleS then [] else [call] := by
  unfold kept
  rw [Gate.passed_concat]
  congr 1
  by_cases hpass : gate.passes (gate.afterAll (fun _ => none) before) call =
      true
  · -- what passes is its throttle away from all that passed before it
    have happend : gate.passed (fun _ => none) (before ++ [call]) =
        gate.passed (fun _ => none) before ++ [call] := by
      rw [Gate.passed_concat, if_pos hpass]
    have hapart : (gate.passed (fun _ => none) (before ++ [call])).Pairwise
        fun a b => a.key = b.key → b.throttleS ≤ b.now - a.now :=
      passed_apart htimes
    rw [happend] at hapart
    have hfar := (List.pairwise_append.mp hapart).2.2
    rw [if_pos hpass, if_neg]
    rintro ⟨earlier, hearlier, hkey, hsoon⟩
    have hwait := hfar earlier hearlier call List.mem_cons_self hkey
    exact absurd hsoon (not_lt.mpr hwait)
  · rw [if_neg hpass, if_pos]
    exact exists_of_not_passes (Bool.eq_false_iff.mpr hpass)

/-- After a run of calls the list shows the newest of the logged ones in their
order.  Those of one key are the throttle apart, and a call is left out only
for one of its key that was logged less than the throttle before. -/
theorem getEvents_run (calls : List (EventAdd ℚ))
    (htimes : calls.Pairwise fun a b => a.now ≤ b.now) (limit : ℤ) :
    (new.addAll calls).getEvents limit =
        ((kept calls).map EventAdd.logged).rtake
          (max 1 (min (if limit = 0 then 200 else limit) 2000)).toNat ∧
      (kept calls).Sublist calls ∧
      ((kept calls).Pairwise fun a b =>
        a.key = b.key → b.throttleS ≤ b.now - a.now) ∧
      ∀ before call after, calls = before ++ call :: after →
        kept (before ++ [call]) = kept before ++
          if ∃ earlier ∈ kept before, earlier.key = call.key ∧
            call.now - earlier.now < call.throttleS then [] else [call] := by
  refine ⟨?_, Gate.passed_sublist calls, passed_apart htimes, ?_⟩
  · have hle : (max 1 (min (if limit = 0 then 200 else limit) 2000)).toNat ≤
        5000 := by
      omega
    unfold getEvents
    rw [addAll_events]
    exact rtake_rtake hle _
  · rintro before call after rfl
    have hsplit : before ++ call :: after = (before ++ [call]) ++ after := by
      simp
    rw [hsplit] at htimes
    exact kept_concat (List.pairwise_append.mp htimes).1

def noFixAt (now : ℚ) : EventAdd ℚ where
  code := "NO_FIX"
  mountpoint := "M1"
  connId := some 1
  user := "ali"
  severity := "warn"
  msg := ""
  ctx := .obj []
  throttleS := 10
  now := now
  tsUnixMs := 0

/-- The second of three calls comes too soon. -/
theorem getEvents_run_threeCalls :
    (new.addAll [noFixAt 1, noFixAt 5, noFixAt 12]).getEvents 0 =
      ((kept [noFixAt 1, noFixAt 5, noFixAt 12]).map
        EventAdd.logged).rtake 200 :=
  (getEvents_run [noFixAt 1, noFixAt 5, noFixAt 12]
    (by simp [noFixAt]; norm_num) 0).1

end EventLog

end BabilCors
