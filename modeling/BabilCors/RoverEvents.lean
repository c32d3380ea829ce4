import BabilCors.EventLog
import BabilCors.Sourcetable

/-!
# The events of different rovers

The throttle key is the code, the mountpoint, the session's id and the user
with colons between them.  A mountpoint may itself have colons, but the codes
and the ids have none, and neither has a user that a request can name.  So the
key tells sessions apart, and no rover holds back the events of another.
-/

namespace BabilCors

open KeyedGates Py

namespace EventAdd

variable {F : Type}

/-- No part of the key around the mountpoint has a colon. -/
structure Plain (call : EventAdd F) : Prop where
  code : ':' ∉ call.code.toList
  user : ':' ∉ call.user.toList

theorem connText_plain (call : EventAdd F) : ':' ∉ call.connText.toList := by
  unfold connText
  cases call.connId with
  | none => decide
  | some n =>
      intro hcolon
      have hdigit := isDigit_toDigits (n := n) (c := ':') (by simpa using hcolon)
      revert hdigit
      decide

theorem connText_inj {call call' : EventAdd F}
    (htext : call.connText = call'.connText) : call.connId = call'.connId := by
  have hdigits (n : ℕ) (htext : "None" = toString n) : False := by
    have hlist : "None".toList = Nat.toDigits 10 n := by
      rw [htext]
      simp
    have hdigit := isDigit_toDigits (n := n) (c := 'N') (by
      rw [← hlist]
      decide)
    revert hdigit
    decide
  unfold connText at htext
  cases hn : call.connId with
  | none =>
      cases hm : call'.connId with
      | none => rfl
      | some m =>
          rw [hn, hm] at htext
          exact (hdigits m htext).elim
  | some n =>
      cases hm : call'.connId with
      | none =>
          rw [hn, hm] at htext
          exact (hdigits n htext.symm).elim
      | some m =>
          rw [hn, hm] at htext
          have hlist : Nat.toDigits 10 n = Nat.toDigits 10 m := by
            simpa using congrArg String.toList htext
          have hvalue := congrArg (fun ds => Nat.ofDigitChars 10 ds 0) hlist
          rw [Nat.ofDigitChars_ten_toDigits, Nat.ofDigitChars_ten_toDigits]
            at hvalue
          rw [hvalue]

/-- The key determines its parts: the code and the rest are split at the first
colon, the user and the id at the last two. -/
theorem key_inj {call call' : EventAdd F} (hplain : call.Plain)
    (hplain' : call'.Plain) (hkey : call.key = call'.key) :
    call.code = call'.code ∧ call.mountpoint = call'.mountpoint ∧
      call.connId = call'.connId ∧ call.user = call'.user := by
  have hlist : call.code.toList ++ ':' :: (call.mountpoint.toList ++
      ':' :: (call.connText.toList ++ ':' :: call.user.toList)) =
      call'.code.toList ++ ':' :: (call'.mountpoint.toList ++
        ':' :: (call'.connText.toList ++ ':' :: call'.user.toList)) := by
    simpa [key] using congrArg String.toList hkey
  -- each comparison of two texts goes through the side that has no colon
  have hleft {a a' r r' : List Char} (ha : ':' ∉ a) (ha' : ':' ∉ a')
      (heq : a ++ ':' :: r = a' ++ ':' :: r') : a = a' ∧ r = r' := by
    have hpass {l : List Char} (hl : ':' ∉ l) :
        ∀ c ∈ l, (c != ':') = true := by
      intro c hc
      simpa using fun h : c = ':' => hl (h ▸ hc)
    have htake := congrArg (List.takeWhile (· != ':')) heq
    rw [List.takeWhile_append_of_pos (hpass ha),
      List.takeWhile_append_of_pos (hpass ha')] at htake
    obtain rfl : a = a' := by simpa using htake
    exact ⟨rfl, (List.cons.inj (List.append_cancel_left heq)).2⟩
  have hright {a a' r r' : List Char} (hr : ':' ∉ r) (hr' : ':' ∉ r')
      (heq : a ++ ':' :: r = a' ++ ':' :: r') : a = a' ∧ r = r' := by
    have hreverse := congrArg List.reverse heq
    simp only [List.reverse_append, List.reverse_cons, List.append_assoc,
      List.singleton_append] at hreverse
    have hparts : r.reverse = r'.reverse ∧ a.reverse = a'.reverse :=
      hleft (by simpa using hr) (by simpa using hr') hreverse
    exact ⟨List.reverse_injective hparts.2, List.reverse_injective hparts.1⟩
  obtain ⟨hcode, hrest⟩ := hleft hplain.code hplain'.code hlist
  have hrest' : (call.mountpoint.toList ++ ':' :: call.connText.toList) ++
      ':' :: call.user.toList =
      (call'.mountpoint.toList ++ ':' :: call'.connText.toList) ++
        ':' :: call'.user.toList := by
    simpa using hrest
  obtain ⟨hfront, huser⟩ := hright hplain.user hplain'.user hrest'
  obtain ⟨hmount, hconn⟩ :=
    hright call.connText_plain call'.connText_plain hfront
  exact ⟨String.toList_injective hcode, String.toList_injective hmount,
    connText_inj (String.toList_injective hconn),
    String.toList_injective huser⟩

end EventAdd

/-! ## Users that a request can name -/

theorem parseBasicAuth_plain {headerValue user password : String}
    (hauth : parseBasicAuth headerValue = .ok (some (user, password))) :
    ':' ∉ user.toList := by
  unfold parseBasicAuth at hauth
  split at hauth
  · cases hauth
  · split_ifs at hauth
    · cases hauth
    · obtain ⟨raw, -, hparts⟩ := map_eq_ok.mp hauth
      dsimp only at hparts
      split at hparts
      · cases hparts
      · split_ifs at hparts
        obtain ⟨rfl, -⟩ := Prod.mk.inj (Option.some.inj hparts)
        intro hcolon
        rw [before, String.toList_ofList] at hcolon
        simpa using List.mem_takeWhile_imp hcolon

/-! ## Runs -/

/-- A call that the read loop of a rover makes, whose user is one that a
request can name. -/
structure SessionEvent [PyMath ℚ] where
  env : ReadEnv ℚ
  call : EventCall ℚ
  now : ℚ
  tsUnixMs : ℤ
  named : ∃ headerValue password,
    parseBasicAuth headerValue = .ok (some (env.username, password))
  raised : ∃ s lineB clock result,
    processLine env s lineB clock = .ok result ∧ .event call ∈ result.effects

namespace SessionEvent

variable [PyMath ℚ]

def add (event : SessionEvent) : EventAdd ℚ :=
  event.env.eventAdd event.call event.now event.tsUnixMs

/-- The events are of one session of one user. -/
def SameSession (event event' : SessionEvent) : Prop :=
  event.env.mountpoint = event'.env.mountpoint ∧
    event.env.sessionId = event'.env.sessionId ∧
    event.env.username = event'.env.username

instance (event : SessionEvent) : DecidablePred (SameSession event) :=
  fun _ => inferInstanceAs (Decidable (_ ∧ _ ∧ _))

theorem add_plain (event : SessionEvent) : event.add.Plain := by
  obtain ⟨headerValue, password, hauth⟩ := event.named
  obtain ⟨s, lineB, clock, result, hresult, hcall⟩ := event.raised
  obtain ⟨kind, hkind, hcode, -⟩ := processLine_known hresult hcall
  refine ⟨?_, parseBasicAuth_plain hauth⟩
  have hall : ∀ kind ∈ eventKinds, ':' ∉ kind.1.toList := by
    decide
  have hplain := hall kind hkind
  rw [← hcode] at hplain
  exact hplain

theorem sameSession_of_key {event event' : SessionEvent}
    (hkey : event.add.key = event'.add.key) : SameSession event event' := by
  obtain ⟨-, hmount, hid, huser⟩ :=
    EventAdd.key_inj event.add_plain event'.add_plain hkey
  exact ⟨hmount, Option.some.inj hid, huser⟩

/-- The calls of a session's key, and those of the others, among the logged
ones. -/
theorem kept_of_key (before : List SessionEvent) (event : SessionEvent) :
    ((EventLog.kept (before.map add)).filter fun call =>
        call.key = event.add.key) =
      (EventLog.kept ((before.filter (SameSession event)).map add)).filter
        fun call => call.key = event.add.key := by
  have hfilter (calls : List (EventAdd ℚ)) :
      ((EventLog.kept calls).filter fun call => call.key = event.add.key) =
        EventLog.kept (calls.filter fun call => call.key = event.add.key) :=
    Gate.passed_filter (g := EventLog.gate)
      (fun key => decide (key = event.add.key)) (fun _ => none) calls
  rw [hfilter, hfilter]
  congr 1
  rw [List.filter_map, List.filter_map, List.filter_filter]
  congr 1
  apply List.filter_congr
  intro other _
  simp only [Function.comp_apply]
  by_cases hkey : other.add.key = event.add.key
  · have hsame : SameSession event other := sameSession_of_key hkey.symm
    simp [hkey, hsame]
  · simp [hkey]

/-- Whatever the other rovers do and however the calls are interleaved, an
event is held back only by the earlier events of its own session. -/
theorem throttled_isolated (before : List SessionEvent)
    (event : SessionEvent) :
    (EventLog.new.addAll (before.map add)).throttled event.add =
      (EventLog.new.addAll
        ((before.filter (SameSession event)).map add)).throttled event.add := by
  have hpasses (calls : List (EventAdd ℚ)) :
      (EventLog.new.addAll calls).throttled event.add =
        !(EventLog.gate.opens
          ((EventLog.kept calls).filter fun call =>
            call.key = event.add.key).getLast? event.add) := by
    rw [(EventLog.addAll_remembers calls).throttled, Gate.passes,
      Gate.afterAll_eq, Option.or_none]
    rfl
  rw [hpasses, hpasses, kept_of_key]

end SessionEvent

/-! ## Two rovers without a fix -/

def noFixGga : Gga ℚ := ⟨1 / 2, 1 / 2, 0, 8, 1⟩

def noFixCall : EventCall ℚ where
  code := "NO_FIX"
  severity := "warning"
  msg := "Fix yok"
  ctx := .obj [("nsat", .int 8), ("hdop", .float 1)]
  throttle := 10

/-- The session with this id of a user whose name has been read from a header
reports that it has no fix. -/
def noFixOf (sessionId : ℕ) (now : ℚ) : @SessionEvent noMath :=
  let _ := noMath
  { env := { defaultEnv with sessionId := sessionId }
    call := noFixCall
    now := now
    tsUnixMs := 0
    named := by
      have hauth : parseBasicAuth "Basic cm92ZXI6aHVudGVyMg==" =
          .ok (some (defaultEnv.username, "hunter2")) := by
        decide +kernel
      exact ⟨_, _, hauth⟩
    raised := by
      have hgga : (sentenceOf (utf8Encode
          ("$GPGGA,120000,0030.0000,N,00030.0000,E,0,08,1.0,100.0,M,0.0,M" ++
            ",,*78"))).gga? = some noFixGga := by
        decide +kernel
      have hline := processLine_of_gga? hgga
        { defaultEnv with sessionId := sessionId } .new fun _ => 0
      refine ⟨_, _, _, _, hline, ?_⟩
      rw [processGga_effects]
      exact List.mem_append_left _ (List.mem_append_left _
        (List.mem_append_left _ (List.mem_singleton_self _))) }

/-- The first session's event holds back the first session's next one, and not
that of the second, which is the same user's. -/
theorem throttled_isolated_twoRovers :
    (EventLog.new.addAll ([noFixOf 1 0, noFixOf 2 4].map
        (@SessionEvent.add noMath))).throttled
          (@SessionEvent.add noMath (noFixOf 1 9)) = true ∧
      (EventLog.new.addAll ([noFixOf 1 0].map
        (@SessionEvent.add noMath))).throttled
          (@SessionEvent.add noMath (noFixOf 2 4)) = false := by
  rw [@SessionEvent.throttled_isolated noMath [noFixOf 1 0, noFixOf 2 4],
    @SessionEvent.throttled_isolated noMath [noFixOf 1 0]]
  constructor
  · decide +kernel
  · decide +kernel

end BabilCors
