import BabilCors.AdminGate
import BabilCors.DisabledMountpoints
import BabilCors.MetricsPage

/-!
# The names on the metrics page

A mountpoint gets on the metrics page when a rover is refused or admitted, and
when a source gets to a hub; no name ever leaves it.
-/

namespace BabilCors

open Py TransitionRuns ExpositionFormat

variable {F : Type}

namespace Caster

/-! ## The names that a step brings -/

/-- A name of a hub, of a counter or of a task. -/
inductive HasName (c : Caster F) (mp : String) : Prop
  | hub (hmp : mp ∈ c.mountpoints.keys)
  | refused (hmp : mp ∈ c.authUnauthPerMp.keys)
  | rover (t : RoverTask F) (ht : t ∈ c.rovers) (hmp : t.mountpoint = mp)
  | source (s : SourceTask) (hs : s ∈ c.sources) (hmp : s.mountpoint = mp)

/-- The request is counted as unauthorized or accepted. -/
def Records [Crypto] [PyFloat F] (c : Caster F) (req : RoverRequest) :
    Prop :=
  match c.roverVerdict req with
  | .refused .unauthorized | .icy _ _ _ => True
  | _ => False

/-- The SOURCE line has the password and names a mountpoint of the list. -/
def TakesHub (c : Caster F) (first : Bytes) (mp : String) : Prop :=
  ∃ word password path rest,
    splitWs (strip (safeDecode first)) = word :: password :: path :: rest ∧
      lstripChar '/' path = mp ∧ password = c.cfg.sources.password ∧
      (c.cfg.sources.mountpoints = [] ∨ mp ∈ c.cfg.sources.mountpoints)

def Brings [Crypto] [PyFloat F] (c : Caster F) (event : Event F)
    (mp : String) : Prop :=
  match event with
  | .roverRequest req _ => mp = req.mountpoint ∧ c.Records req
  | .sourceRequest first _ _ => c.TakesHub first mp
  | _ => False

theorem HasName.of_same {c c' : Caster F} {mp : String}
    (hname : c'.HasName mp) (hhubs : c'.mountpoints = c.mountpoints)
    (hrefused : c'.authUnauthPerMp = c.authUnauthPerMp)
    (hrovers : c'.rovers = c.rovers) (hsources : c'.sources = c.sources) :
    c.HasName mp := by
  cases hname with
  | hub hmp => exact .hub (hhubs ▸ hmp)
  | refused hmp => exact .refused (hrefused ▸ hmp)
  | rover t ht hmp => exact .rover t (hrovers ▸ ht) hmp
  | source s hs hmp => exact .source s (hsources ▸ hs) hmp

theorem HasName.of_setHub {c : Caster F} {m mp : String} {h : MountpointHub}
    (hname : (c.setHub m h).HasName mp) : c.HasName mp ∨ mp = m := by
  cases hname with
  | hub hmp =>
      have hkeys : mp ∈ (c.mountpoints.set m h).keys := hmp
      rw [PyDict.keys_set] at hkeys
      split_ifs at hkeys
      · exact .inl (.hub hkeys)
      · rcases List.mem_append.mp hkeys with hold | hnew
        · exact .inl (.hub hold)
        · exact .inr (List.mem_singleton.mp hnew)
  | refused hmp => exact .inl (.refused hmp)
  | rover t ht hmp => exact .inl (.rover t ht hmp)
  | source s hs hmp => exact .inl (.source s hs hmp)

theorem HasName.of_mapRovers {c : Caster F} {members : List ℕ}
    {f : RoverTask F → RoverTask F} {mp : String}
    (hf : ∀ t, (f t).mountpoint = t.mountpoint)
    (hname : (c.mapRovers members f).HasName mp) : c.HasName mp := by
  cases hname with
  | hub hmp => exact .hub hmp
  | refused hmp => exact .refused hmp
  | rover t ht hmp =>
      rcases List.mem_iff_getElem?.mp ht with ⟨i, hi⟩
      rw [getElem?_mapRovers] at hi
      rcases Option.map_eq_some_iff.mp hi with ⟨t', ht', rfl⟩
      refine .rover t' (List.mem_of_getElem? ht') ?_
      rw [← hmp]
      split_ifs
      · exact (hf t').symm
      · rfl
  | source s hs hmp => exact .source s hs hmp

theorem HasName.of_setRover {c : Caster F} {i : ℕ} {t t' : RoverTask F}
    {mp : String} (ht : c.rovers[i]? = some t)
    (hsame : t'.mountpoint = t.mountpoint)
    (hname : (c.setRover i t').HasName mp) : c.HasName mp := by
  cases hname with
  | hub hmp => exact .hub hmp
  | refused hmp => exact .refused hmp
  | rover u hu hmp =>
      rcases List.mem_or_eq_of_mem_set hu with hold | rfl
      · exact .rover u hold hmp
      · exact .rover t (List.mem_of_getElem? ht) (hsame ▸ hmp)
  | source s hs hmp => exact .source s hs hmp

theorem HasName.of_setSource {c : Caster F} {j : ℕ} {s s' : SourceTask}
    {mp : String} (hs : c.sources[j]? = some s)
    (hsame : s'.mountpoint = s.mountpoint)
    (hname : (c.setSource j s').HasName mp) : c.HasName mp := by
  cases hname with
  | hub hmp => exact .hub hmp
  | refused hmp => exact .refused hmp
  | rover t ht hmp => exact .rover t ht hmp
  | source u hu hmp =>
      rcases List.mem_or_eq_of_mem_set hu with hold | rfl
      · exact .source u hold hmp
      · exact .source s (List.mem_of_getElem? hs) (hsame ▸ hmp)

theorem HasName.of_detachSource {c : Caster F} {m mp : String}
    (hname : (c.detachSource m).HasName mp) : c.HasName mp ∨ mp = m := by
  rcases hname.of_setHub with hname | hmp
  · refine .inl (HasName.of_mapRovers ?_ hname)
    exact fun _ => rfl
  · exact .inr hmp

theorem HasName.of_close {c : Caster F} {mp : String}
    (hname : c.close.HasName mp) : c.HasName mp := by
  have hfold (ms : List String) (d : Caster F)
      (hname : (ms.foldl detachSource d).HasName mp) :
      d.HasName mp ∨ mp ∈ ms := by
    induction ms generalizing d with
    | nil => exact .inl hname
    | cons m ms ih =>
        rcases ih (d.detachSource m) hname with hd | hmem
        · rcases hd.of_detachSource with hd | rfl
          · exact .inl hd
          · exact .inr List.mem_cons_self
        · exact .inr (List.mem_cons_of_mem m hmem)
  rcases hfold c.mountpoints.keys c hname with hc | hmem
  · exact hc
  · exact .hub hmem

theorem HasName.of_sourceRead {c : Caster F} {j : ℕ} {s : SourceTask}
    {chunk : Bytes} {now : ℚ} {mp : String} (hs : c.sources[j]? = some s)
    (hname : (c.sourceRead j s chunk now).HasName mp) : c.HasName mp := by
  have hmine : c.HasName s.mountpoint :=
    .source s (List.mem_of_getElem? hs) rfl
  have hparsed {h : MountpointHub} {buf : Bytes} (hname : ((c.setSource j
      { s with parserBuf := buf }).setHub s.mountpoint h).HasName mp) :
      c.HasName mp := by
    rcases hname.of_setHub with hname | rfl
    · refine HasName.of_setSource hs ?_ hname
      rfl
    · exact hmine
  unfold sourceRead onSourceData at hname
  dsimp only at hname
  split_ifs at hname
  · exact hparsed hname
  · rcases hname.of_setHub with hname | rfl
    · refine hparsed (HasName.of_mapRovers ?_ hname)
      exact fun t => RoverSession.offer_mountpoint t.session _ now
    · exact hmine

theorem mem_keys_setHub (c : Caster F) (m : String) (h : MountpointHub) :
    m ∈ (c.setHub m h).mountpoints.keys := by
  rw [← PyDict.get?_isSome_iff]
  change ((c.mountpoints.set m h).get? m).isSome = true
  rw [PyDict.get?_set_self]
  rfl

/-- A SOURCE line brings no name, or that of the mountpoint whose hub it
takes. -/
inductive SourceNaming (c c' : Caster F) (first : Bytes) : Prop
  | idle (hnone : ∀ mp, ¬ c.TakesHub first mp)
      (hnames : ∀ mp, c'.HasName mp → c.HasName mp)
  | takes (m : String) (htakes : ∀ mp, c.TakesHub first mp ↔ mp = m)
      (hkey : m ∈ c'.mountpoints.keys)
      (hnames : ∀ mp, c'.HasName mp → c.HasName mp ∨ mp = m)

theorem takesHub_of_line {first : Bytes} {word password path : String}
    {rest : List String}
    (hline : splitWs (strip (safeDecode first)) =
      word :: password :: path :: rest) (c : Caster F) (mp : String) :
    c.TakesHub first mp ↔ lstripChar '/' path = mp ∧
      password = c.cfg.sources.password ∧
      (c.cfg.sources.mountpoints = [] ∨ mp ∈ c.cfg.sources.mountpoints) := by
  constructor
  · rintro ⟨word', password', path', rest', hline', htakes⟩
    rw [hline] at hline'
    cases hline'
    exact htakes
  · exact fun htakes => ⟨word, password, path, rest, hline, htakes⟩

theorem handleSource_naming (c : Caster F) (first : Bytes) (addr : String)
    (hasCert : Bool) :
    SourceNaming c (c.handleSource first addr hasCert) first := by
  unfold handleSource
  split
  next word password path rest hline =>
    have htakes := takesHub_of_line hline c
    dsimp only
    by_cases hpassword : password ≠ c.cfg.sources.password
    · rw [if_pos hpassword]
      refine .idle (fun mp hmp => hpassword ((htakes mp).mp hmp).2.1) ?_
      intro mp hname
      refine HasName.of_same hname ?_ ?_ ?_ ?_ <;> rfl
    by_cases hlisted : c.cfg.sources.mountpoints ≠ [] ∧
        lstripChar '/' path ∉ c.cfg.sources.mountpoints
    · rw [if_neg hpassword, if_pos hlisted]
      refine .idle (fun mp hmp => ?_) fun _ hname => hname
      obtain ⟨rfl, _, hlist⟩ := (htakes mp).mp hmp
      rcases hlist with hall | hmem
      · exact hlisted.1 hall
      · exact hlisted.2 hmem
    have honly (mp : String) :
        c.TakesHub first mp ↔ mp = lstripChar '/' path := by
      rw [htakes]
      constructor
      · exact fun hmp => hmp.1.symm
      · rintro rfl
        refine ⟨rfl, not_not.mp hpassword, ?_⟩
        by_contra hneither
        simp only [not_or] at hneither
        exact hlisted hneither
    have htaken (h : MountpointHub) :
        SourceNaming c (c.setHub (lstripChar '/' path) h) first :=
      .takes _ honly (c.mem_keys_setHub _ h) fun _ hname => hname.of_setHub
    rw [if_neg hpassword, if_neg hlisted]
    split_ifs
    · exact htaken _
    · split
      · refine .takes _ honly (Caster.mem_keys_setHub _ _ _) fun mp hname => ?_
        have hset {h h' : MountpointHub} (hname : ((c.setHub
            (lstripChar '/' path) h).setHub (lstripChar '/' path)
              h').HasName mp) : c.HasName mp ∨ mp = lstripChar '/' path := by
          rcases hname.of_setHub with hname | hmp
          · exact hname.of_setHub
          · exact .inr hmp
        cases hname with
        | hub hmp => exact hset (.hub hmp)
        | refused hmp => exact .inl (.refused hmp)
        | rover t ht hmp => exact .inl (.rover t ht hmp)
        | source s hs hmp =>
            rcases List.mem_append.mp hs with hold | hnew
            · exact .inl (.source s hold hmp)
            · obtain rfl := List.mem_singleton.mp hnew
              exact .inr hmp.symm
      · exact htaken _
    · exact htaken _
  next hshort =>
    refine .idle ?_ fun _ hname => hname
    rintro mp ⟨word, password, path, rest, hline, _⟩
    exact hshort word password path rest hline

theorem HasName.of_handleSource {c : Caster F} {first : Bytes} {addr : String}
    {hasCert : Bool} {mp : String}
    (hname : (c.handleSource first addr hasCert).HasName mp) :
    c.HasName mp ∨ c.TakesHub first mp := by
  cases c.handleSource_naming first addr hasCert with
  | idle hnone hnames => exact .inl (hnames mp hname)
  | takes m htakes hkey hnames =>
      rw [htakes]
      exact hnames mp hname

theorem HasName.of_handleRover [Crypto] [PyFloat F] {c : Caster F}
    {req : RoverRequest} {now : ℚ} {mp : String}
    (hname : (c.handleRover req now).HasName mp) :
    c.HasName mp ∨ (mp = req.mountpoint ∧ c.Records req) := by
  rw [handleRover_eq] at hname
  unfold Records
  generalize c.roverVerdict req = verdict at hname ⊢
  cases verdict with
  | refused refusal =>
      cases refusal with
      | page | forbidden | raises => exact .inl hname
      | unauthorized =>
          cases hname with
          | hub hmp => exact .inl (.hub hmp)
          | refused hmp =>
              have hkeys : mp ∈ (c.authUnauthPerMp.set req.mountpoint
                ((c.authUnauthPerMp.get? req.mountpoint).getD 0 + 1)).keys :=
                  hmp
              rw [PyDict.keys_set] at hkeys
              split_ifs at hkeys
              · exact .inl (.refused hkeys)
              · rcases List.mem_append.mp hkeys with hold | hnew
                · exact .inl (.refused hold)
                · exact .inr ⟨List.mem_singleton.mp hnew, trivial⟩
          | rover t ht hmp => exact .inl (.rover t ht hmp)
          | source s hs hmp => exact .inl (.source s hs hmp)
  | headerRaises =>
      left
      refine HasName.of_same hname ?_ ?_ ?_ ?_ <;> rfl
  | icy user username gga =>
      have hnew : mp = req.mountpoint →
          c.HasName mp ∨ (mp = req.mountpoint ∧ True) :=
        fun hmp => .inr ⟨hmp, trivial⟩
      cases hname with
      | hub hmp =>
          have hset : (c.setHub req.mountpoint
              { c.hub req.mountpoint with
                rovers := (c.hub req.mountpoint).rovers ++
                  [c.rovers.length] }).HasName mp := .hub hmp
          rcases hset.of_setHub with hold | hmp
          · exact .inl hold
          · exact hnew hmp
      | refused hmp => exact .inl (.refused hmp)
      | rover t ht hmp =>
          rcases List.mem_append.mp ht with hold | hlast
          · exact .inl (.rover t hold hmp)
          · obtain rfl := List.mem_singleton.mp hlast
            exact hnew hmp.symm
      | source s hs hmp => exact .inl (.source s hs hmp)

/-- A name behind a step was there before, or the step has brought it. -/
theorem HasName.of_step [Crypto] [PyFloat F] {c c' : Caster F}
    {event : Event F} {mp : String} (hstep : c.step event = some c')
    (hname : c'.HasName mp) : c.HasName mp ∨ c.Brings event mp := by
  have hrover {i : ℕ} {t : RoverTask F} (ht : c.rovers[i]? = some t) :
      c.HasName t.mountpoint := .rover t (List.mem_of_getElem? ht) rfl
  have hsource {j : ℕ} {s : SourceTask} (hs : c.sources[j]? = some s) :
      c.HasName s.mountpoint := .source s (List.mem_of_getElem? hs) rfl
  cases step_outcome hstep with
  | roverRequest req now => exact hname.of_handleRover
  | roverIcy i ok t t' ht hdone =>
      rcases RoverTask.icyDone_eq_some hdone with ⟨_, rfl⟩
      left
      refine HasName.of_setRover ht ?_ hname
      rfl
  | roverReadEnds i t t' ht hdone =>
      rcases RoverTask.readEnds_eq_some hdone with ⟨_, rfl⟩
      left
      refine HasName.of_setRover ht ?_ hname
      rfl
  | roverFinish i t t' ht hfinish =>
      have hsame := (RoverTask.finish_eq_some hfinish).2.2.1
      have hset : ((c.setRover i t').setHub t'.mountpoint
          { c.hub t'.mountpoint with
            rovers := (c.hub t'.mountpoint).rovers.filter
              (· ≠ i) }).HasName mp := by
        refine HasName.of_same hname ?_ ?_ ?_ ?_ <;> rfl
      left
      rcases hset.of_setHub with hold | rfl
      · exact hold.of_setRover ht hsame
      · rw [hsame]
        exact hrover ht
  | roverSend i event t t' ht hsend =>
      have hsame := (RoverTask.sendStep_outcome hsend).2.mountpoint
      left
      rcases hname.of_setHub with hold | rfl
      · exact hold.of_setRover ht hsame
      · exact hrover ht
  | sourceRequest first addr hasCert => exact hname.of_handleSource
  | sourceIcy j ok s hs hphase =>
      left
      refine HasName.of_setSource hs ?_ hname
      rfl
  | sourceDrain j ok s hs hphase =>
      left
      refine HasName.of_setSource hs ?_ hname
      rfl
  | sourceRead j chunk now s hs hphase => exact .inl (hname.of_sourceRead hs)
  | sourceEnds j s hs hphase =>
      left
      rcases hname.of_detachSource with hold | rfl
      · refine HasName.of_setSource hs ?_ hold
        rfl
      · exact hsource hs
  | kick connId mountpoint =>
      rw [kickRover_eq] at hname
      left
      refine HasName.of_mapRovers ?_ hname
      exact fun _ => rfl
  | close => exact .inl hname.of_close
  | reload cfg mtls disabled =>
      left
      refine HasName.of_same hname ?_ ?_ ?_ ?_ <;> rfl

/-- A step that brings a name can be taken. -/
theorem Brings.step [Crypto] [PyFloat F] {c : Caster F} {event : Event F}
    {mp : String} (hbrings : c.Brings event mp) :
    ∃ c', c.step event = some c' := by
  cases event with
  | roverRequest req now => exact ⟨_, rfl⟩
  | sourceRequest first addr hasCert => exact ⟨_, rfl⟩
  | _ => exact hbrings.elim

theorem HasName.of_metricNames {c : Caster F} {mp : String}
    (hmp : mp ∈ c.metricNames) : c.HasName mp := by
  rcases List.mem_append.mp hmp with hhub | hrefused
  · exact .hub hhub
  · exact .refused hrefused

theorem handleSource_metricNames {c : Caster F} {first : Bytes}
    {mp : String} (htakes : c.TakesHub first mp) (addr : String)
    (hasCert : Bool) :
    mp ∈ (c.handleSource first addr hasCert).metricNames := by
  cases c.handleSource_naming first addr hasCert with
  | idle hnone hnames => exact (hnone mp htakes).elim
  | takes m honly hkey hnames =>
      obtain rfl := (honly mp).mp htakes
      exact List.mem_append_left _ hkey

theorem handleRover_metricNames [Crypto] [PyFloat F] {c : Caster F}
    {req : RoverRequest} (hrecords : c.Records req) (now : ℚ) :
    req.mountpoint ∈ (c.handleRover req now).metricNames := by
  rw [handleRover_eq]
  unfold Records at hrecords
  generalize c.roverVerdict req = verdict at hrecords ⊢
  cases verdict with
  | refused refusal =>
      cases refusal with
      | page | forbidden | raises => exact hrecords.elim
      | unauthorized =>
          apply List.mem_append_right
          rw [← PyDict.get?_isSome_iff]
          change ((c.authUnauthPerMp.set req.mountpoint _).get?
            req.mountpoint).isSome = true
          rw [PyDict.get?_set_self]
          rfl
  | headerRaises => exact hrecords.elim
  | icy user username gga =>
      apply List.mem_append_left
      exact c.mem_keys_setHub req.mountpoint _

/-- What a step brings is on the next page. -/
theorem Brings.metricNames [Crypto] [PyFloat F] {c c' : Caster F}
    {event : Event F} {mp : String} (hstep : c.step event = some c')
    (hbrings : c.Brings event mp) : mp ∈ c'.metricNames := by
  cases event with
  | roverRequest req now =>
      obtain rfl := Option.some.inj hstep
      rcases hbrings with ⟨rfl, hrecords⟩
      exact handleRover_metricNames hrecords now
  | sourceRequest first addr hasCert =>
      obtain rfl := Option.some.inj hstep
      exact handleSource_metricNames hbrings addr hasCert
  | _ => exact hbrings.elim

end Caster

/-! ## The requests that the admin part answers -/

/-- The admin part has answered or raised. -/
def Outcome.Answered (o : Outcome F) : Prop :=
  o.reply ≠ .ok .rover

namespace NtripCaster

theorem replies_answered {s : NtripCaster F} {reply : Reply F}
    (hreply : reply ≠ .rover) : (s.replies reply).Answered :=
  fun h => hreply (Except.ok.inj h)

theorem raises_answered (s : NtripCaster F) (e : PyErr) :
    (s.raises e).Answered := by
  rintro ⟨⟩

theorem failure_answered (s : NtripCaster F) (status : ℕ)
    (code message : String) (details : Option String) :
    (s.replies (.failure status code message details)).Answered :=
  replies_answered (by simp [Reply.failure])

section Answers

variable [PyFloat F]

theorem answerUpdate_answered {s : NtripCaster F} {m : Moment}
    {updater : Updater F} {answer : Bool → String → Reply F}
    {failed : PyErr → Except PyErr (Reply F)}
    (hanswer : ∀ ok msg, answer ok msg ≠ .rover)
    (hfailed : ∀ e, failed e ≠ .ok .rover) :
    (s.answerUpdate m updater answer failed).Answered := by
  unfold answerUpdate
  rcases s.updateConfig updater m.diskError with ⟨e | ⟨ok, msg⟩, s'⟩
  · exact hfailed e
  · exact replies_answered (hanswer ok msg)

/-- Nearly every update is answered by its outcome and its message. -/
theorem updated_answered {s : NtripCaster F} {m : Moment}
    {updater : Updater F} {status : Bool → ℕ}
    {failed : PyErr → Except PyErr (Reply F)}
    (hfailed : ∀ e, failed e ≠ .ok .rover) :
    (s.answerUpdate m updater (fun ok => .updated (status ok) ok)
      failed).Answered :=
  answerUpdate_answered (fun _ _ => by simp [Reply.updated]) hfailed

theorem deleted_answered {s : NtripCaster F} {m : Moment}
    {updater : Updater F} {failed : PyErr → Except PyErr (Reply F)}
    (hfailed : ∀ e, failed e ≠ .ok .rover) :
    (s.answerUpdate m updater (fun _ _ => .done 204) failed).Answered :=
  answerUpdate_answered (fun _ _ => by simp [Reply.done]) hfailed

omit [PyFloat F] in
theorem conflict_ne_rover (e : PyErr) :
    (conflict e : Except PyErr (Reply F)) ≠ .ok .rover := by
  simp [conflict, Reply.failure]

omit [PyFloat F] in
theorem notFound_ne_rover (e : PyErr) :
    (notFound e : Except PyErr (Reply F)) ≠ .ok .rover := by
  simp [notFound, Reply.failure]

omit [PyFloat F] in
theorem notOwner_ne_rover (e : PyErr) :
    (notOwner e : Except PyErr (Reply F)) ≠ .ok .rover := by
  cases e <;> simp [notOwner, notFound, Reply.failure]

omit [PyFloat F] in
theorem error_ne_rover (e : PyErr) :
    (.error e : Except PyErr (Reply F)) ≠ .ok .rover := by
  rintro ⟨⟩

theorem withField_answered {s : NtripCaster F}
    {field : Except PyErr (Json F)} {next : String → Outcome F}
    (hnext : ∀ name, (next name).Answered) :
    (s.withField field next).Answered := by
  unfold withField
  split
  · exact s.raises_answered _
  · exact hnext _

omit [PyFloat F] in
theorem validated_answered [SchemaLib F] {s : NtripCaster F}
    {schema : BodySchema} {body : Json F} {next : Outcome F}
    (hnext : next.Answered) : (s.validated schema body next).Answered := by
  unfold validated
  split
  · exact s.failure_answered _ _ _ _
  · exact hnext

theorem created_answered [SchemaLib F] {s : NtripCaster F} {m : Moment}
    {schema : BodySchema} {body : Json F} {field : Except PyErr (Json F)}
    {updater : String → Updater F} :
    (s.validated schema body <| s.withField field fun name =>
      s.answerUpdate m (updater name)
        (fun ok => .updated (if ok then 201 else 400) ok)
        conflict).Answered :=
  validated_answered (withField_answered fun _ =>
    updated_answered conflict_ne_rover)

theorem users_answered [SchemaLib F] {s : NtripCaster F}
    {req : AdminRequest F} {body : Json F} {m : Moment} {o : Outcome F}
    (ho : s.users req body m = some o) : o.Answered := by
  unfold users at ho
  split at ho
  · split_ifs at ho <;> obtain rfl := Option.some.inj ho
    · exact replies_answered (by simp [namesReply])
    · exact created_answered
  · split_ifs at ho
    · split at ho <;> obtain rfl := Option.some.inj ho
      · exact s.failure_answered _ _ _ _
      · exact replies_answered (by simp [userReply])
    · obtain rfl := Option.some.inj ho
      exact validated_answered (updated_answered notFound_ne_rover)
    · obtain rfl := Option.some.inj ho
      exact deleted_answered notFound_ne_rover

theorem tiers_answered [SchemaLib F] {s : NtripCaster F}
    {req : AdminRequest F} {body : Json F} {m : Moment} {o : Outcome F}
    (ho : s.tiers req body m = some o) : o.Answered := by
  unfold tiers at ho
  split at ho
  · split_ifs at ho <;> obtain rfl := Option.some.inj ho
    · exact replies_answered (by simp [namesReply])
    · exact created_answered
  · split_ifs at ho
    · split at ho <;> obtain rfl := Option.some.inj ho
      · exact s.failure_answered _ _ _ _
      · exact replies_answered (by simp [tierReply])
    · obtain rfl := Option.some.inj ho
      exact validated_answered (updated_answered notFound_ne_rover)
    · obtain rfl := Option.some.inj ho
      exact deleted_answered notFound_ne_rover

theorem mountpoints_answered [SchemaLib F] {s : NtripCaster F}
    {req : AdminRequest F} {body : Json F} {m : Moment} {o : Outcome F}
    (ho : s.mountpoints req body m = some o) : o.Answered := by
  unfold mountpoints at ho
  split at ho
  · split_ifs at ho <;> obtain rfl := Option.some.inj ho
    · exact replies_answered (by simp [namesReply])
    · exact created_answered
  · split_ifs at ho <;> obtain rfl := Option.some.inj ho
    · exact deleted_answered notFound_ne_rover
    · exact updated_answered error_ne_rover

theorem geofenceDraft_reply {p : Principal} {body : Json F}
    {reply : Reply F} (hdraft : geofenceDraft p body = .ok (.error reply)) :
    reply ≠ .rover := by
  unfold geofenceDraft at hdraft
  rcases bind_eq_ok.mp hdraft with ⟨gid, _, hdraft⟩
  rcases bind_eq_ok.mp hdraft with ⟨poly, _, hdraft⟩
  rcases bind_eq_ok.mp hdraft with ⟨mode, _, hdraft⟩
  dsimp only at hdraft
  split at hdraft
  swap
  · cases hdraft
  rcases bind_eq_ok.mp hdraft with ⟨mode, _, hdraft⟩
  by_cases hgid : gid = ""
  · rw [if_pos hgid] at hdraft
    obtain rfl := Except.error.inj (Except.ok.inj hdraft)
    simp [Reply.failure]
  rw [if_neg hgid] at hdraft
  rcases bind_eq_ok.mp hdraft with ⟨gj, _, hdraft⟩
  rcases bind_eq_ok.mp hdraft with ⟨polygon, _, hdraft⟩
  split at hdraft
  · rcases bind_eq_ok.mp hdraft with ⟨given, _, hdraft⟩
    cases hdraft
  · obtain rfl := Except.error.inj (Except.ok.inj hdraft)
    simp [Reply.failure]

theorem postGeofence_answered (s : NtripCaster F) (p : Principal)
    (body : Json F) (m : Moment) : (s.postGeofence p body m).Answered := by
  unfold postGeofence
  split
  · exact s.raises_answered _
  · next reply hdraft =>
      exact replies_answered (geofenceDraft_reply hdraft)
  · exact updated_answered error_ne_rover

theorem patchGeofence_answered (s : NtripCaster F) (p : Principal)
    (ident : String) (body : Json F) (m : Moment) :
    (s.patchGeofenceRequest p ident body m).Answered := by
  unfold patchGeofenceRequest
  split
  · exact s.raises_answered _
  · exact s.raises_answered _
  · exact s.raises_answered _
  · exact s.failure_answered _ _ _ _
  · exact updated_answered notOwner_ne_rover

theorem deleteGeofence_answered (s : NtripCaster F) (p : Principal)
    (ident : String) (m : Moment) :
    (s.deleteGeofenceRequest p ident m).Answered := by
  refine answerUpdate_answered (fun ok msg => ?_) notOwner_ne_rover
  cases ok <;> simp [Reply.done, Reply.failure]

theorem geofences_answered {s : NtripCaster F} {p : Principal}
    {req : AdminRequest F} {body : Json F} {m : Moment} {o : Outcome F}
    (ho : s.geofences p req body m = some o) : o.Answered := by
  unfold geofences at ho
  cases hnamed : req.named? with
  | none =>
      simp only [hnamed] at ho
      split_ifs at ho <;> obtain rfl := Option.some.inj ho
      · exact s.failure_answered _ _ _ _
      · exact s.failure_answered _ _ _ _
      · exact replies_answered (by simp)
      · exact s.postGeofence_answered p body m
  | some ident =>
      simp only [hnamed] at ho
      split_ifs at ho <;> obtain rfl := Option.some.inj ho
      · exact s.failure_answered _ _ _ _
      · exact s.failure_answered _ _ _ _
      · exact s.patchGeofence_answered p ident body m
      · exact s.deleteGeofence_answered p ident m

theorem resource_answered [SchemaLib F] {s : NtripCaster F} {b : Bearer F}
    {req : AdminRequest F} {body : Json F} {m : Moment} {o : Outcome F}
    (ho : s.resource b req body m = some o) : o.Answered := by
  unfold resource at ho
  split_ifs at ho
  · exact geofences_answered ho
  · obtain rfl := Option.some.inj ho
    exact s.failure_answered _ _ _ _
  · exact users_answered ho
  · exact tiers_answered ho
  · exact mountpoints_answered ho

theorem switchMountpoint_answered (s : NtripCaster F) (b : Bearer F)
    (req : AdminRequest F) (body : Json F) (m : Moment) (action : String)
    (updater : String → Updater F) :
    (s.switchMountpoint b req body m action updater).Answered := by
  have hupdated (s : NtripCaster F) (status : ℕ) (ok : Bool)
      (msg : String) : (s.replies (.updated status ok msg)).Answered :=
    replies_answered (by simp [Reply.updated])
  unfold switchMountpoint
  split_ifs
  · exact s.failure_answered _ _ _ _
  · split
    · exact s.raises_answered _
    · dsimp only
      split_ifs
      · exact hupdated s _ _ _
      · split
        · exact raises_answered _ _
        · exact hupdated _ _ _ _

theorem kick_answered (s : NtripCaster F) (b : Bearer F)
    (req : AdminRequest F) (body : Json F) (m : Moment) :
    (s.kick b req body m).Answered := by
  unfold kick
  split_ifs
  · exact s.failure_answered _ _ _ _
  · split
    · exact s.raises_answered _
    · exact s.raises_answered _
    · exact replies_answered (by simp)

/-! ## The names behind an admin request -/

/-- Nothing has a name that it did not have before. -/
def NoNewName (s s' : NtripCaster F) : Prop :=
  ∀ mp, s'.caster.HasName mp → s.caster.HasName mp

omit [PyFloat F] in
theorem NoNewName.of_caster {s s' : NtripCaster F}
    (hcaster : s'.caster = s.caster) : s.NoNewName s' := by
  intro mp hname
  rw [hcaster] at hname
  exact hname

omit [PyFloat F] in
theorem NoNewName.trans {s s' s'' : NtripCaster F} (h : s.NoNewName s')
    (h' : s'.NoNewName s'') : s.NoNewName s'' :=
  fun mp hname => h mp (h' mp hname)

theorem reloadFromDisk_noNewName (s : NtripCaster F) :
    s.NoNewName s.reloadFromDisk := by
  intro mp hname
  rcases s.reloadFromDisk_caster with ⟨cfg, mtls, disabled, hcaster⟩
  rw [hcaster] at hname
  refine Caster.HasName.of_same hname ?_ ?_ ?_ ?_ <;> rfl

theorem updateConfig_noNewName (s : NtripCaster F) (updater : Updater F)
    (diskError : Option PyErr) :
    s.NoNewName (s.updateConfig updater diskError).2 := by
  cases s.updateConfig_outcome updater diskError with
  | kept hwrite hs' => exact .of_caster (by rw [hs'])
  | written raw hwrite hs' =>
      rw [hs']
      exact ({ s with file := .ok raw }).reloadFromDisk_noNewName

theorem resource_noNewName [SchemaLib F] {s : NtripCaster F} {b : Bearer F}
    {req : AdminRequest F} {body : Json F} {m : Moment} {o : Outcome F}
    (ho : s.resource b req body m = some o) : s.NoNewName o.server := by
  have hfollows := s.resource_follows b req body m
  rw [ho] at hfollows
  generalize resourceCall? b.principal req body = call? at hfollows
  cases hfollows with
  | calls call =>
      rw [answerUpdate_server]
      exact s.updateConfig_noNewName call.updater m.diskError
  | idle hkept => exact .of_caster (by rw [hkept o rfl])

theorem switchMountpoint_noNewName (s : NtripCaster F) (b : Bearer F)
    (req : AdminRequest F) (body : Json F) (m : Moment) (action : String)
    (updater : String → Updater F) :
    s.NoNewName (s.switchMountpoint b req body m action updater).server := by
  cases s.switchMountpoint_outcome b req body m action updater with
  | kept hno hs' => exact .of_caster (by rw [hs'])
  | updated value hmethod hvalue hname hs' =>
      rw [hs']
      exact s.updateConfig_noNewName (updater value.pyStr) m.diskError

theorem kick_noNewName (s : NtripCaster F) (b : Bearer F)
    (req : AdminRequest F) (body : Json F) (m : Moment) :
    s.NoNewName (s.kick b req body m).server := by
  cases s.kick_outcome b req body m with
  | kept hno hs' => exact .of_caster (by rw [hs'])
  | missed connv mpv hconnv hmpv htarget hs' =>
      exact .of_caster (by rw [hs'])
  | kicked connv mpv connId mp hmethod hconnv hmpv htarget hs' =>
      rw [hs']
      intro mp' hname
      change (s.caster.kickRover connId mp).2.HasName mp' at hname
      rw [Caster.kickRover_eq] at hname
      refine Caster.HasName.of_mapRovers ?_ hname
      exact fun _ => rfl

/-- The rover part has got the request, or the admin part has answered it and
brought no name. -/
inductive RoverPart [Crypto] (s : NtripCaster F) (req : AdminRequest F)
    (m : Moment) (o : Outcome F) : Prop
  | passed (hreply : o.reply = .ok .rover)
      (hcaster : o.server.caster = s.caster.handleRover
        ⟨req.addr, req.path, req.headers⟩ m.monotonic)
  | answered (hanswered : o.Answered) (hnames : s.NoNewName o.server)

theorem RoverPart.of_same [Crypto] {s s' : NtripCaster F}
    {req : AdminRequest F} {m : Moment} {o : Outcome F}
    (hcaster : s'.caster = s.caster) (hpart : s'.RoverPart req m o) :
    s.RoverPart req m o := by
  cases hpart with
  | passed hreply hpassed => exact .passed hreply (hcaster ▸ hpassed)
  | answered hanswered hnames =>
      exact .answered hanswered (.trans (.of_caster hcaster) hnames)

theorem operation_roverPart [Crypto] (s : NtripCaster F) (b : Bearer F)
    (req : AdminRequest F) (body : Json F) (m : Moment) :
    s.RoverPart req m (s.operation b req body m) := by
  cases s.operation_outcome b req body m with
  | replied reply hreply ho =>
      rw [ho]
      exact .answered (replies_answered hreply) (.of_caster rfl)
  | raised e ho =>
      rw [ho]
      exact .answered (s.raises_answered e) (.of_caster rfl)
  | operates base hbase hpath hrole ho =>
      rcases ho with ⟨_, ho⟩ | ⟨_, ho⟩ | ⟨_, ho⟩
      · rw [ho]
        exact .answered (s.switchMountpoint_answered b req body m _ _)
          (s.switchMountpoint_noNewName b req body m _ _)
      · rw [ho]
        exact .answered (s.switchMountpoint_answered b req body m _ _)
          (s.switchMountpoint_noNewName b req body m _ _)
      · rw [ho]
        exact .answered (s.kick_answered b req body m)
          (s.kick_noNewName b req body m)
  | passed ho =>
      rw [ho]
      exact .passed rfl rfl

end Answers

section Requests

variable [PyFloat F] [Crypto] [JwtLib F]

theorem login_answered (s : NtripCaster F) (body : Json F) (m : Moment) :
    (s.login body m).Answered := by
  have hrefused := s.failure_answered 401 "unauthorized"
    "invalid creds or jwt secret" none
  unfold login
  dsimp only
  split
  · exact s.raises_answered _
  · exact s.raises_answered _
  · split
    · exact hrefused
    · next u _ =>
        by_cases hsecret : s.jwt.secret = ""
        · rw [if_pos hsecret]
          exact hrefused
        rw [if_neg hsecret]
        split
        · exact s.raises_answered _
        · exact hrefused
        · by_cases hrole : lower u.role ∉ loginRoles
          · rw [if_pos hrole]
            exact s.failure_answered _ _ _ _
          rw [if_neg hrole]
          split
          · exact replies_answered (by simp)
          · exact s.failure_answered _ _ _ _

omit [Crypto] in
theorem tokenRefresh_answered (s : NtripCaster F) (body : Json F)
    (m : Moment) : (s.tokenRefresh body m).Answered := by
  unfold tokenRefresh
  split
  · exact s.raises_answered _
  · split
    · exact failure_answered _ _ _ _ _
    · dsimp only
      split
      · exact replies_answered (by simp)
      · exact raises_answered _ _

omit [Crypto] in
theorem tokenRevoke_answered (s : NtripCaster F) (b : Bearer F)
    (body : Json F) (m : Moment) : (s.tokenRevoke b body m).Answered := by
  unfold tokenRevoke
  split_ifs
  · exact s.failure_answered _ _ _ _
  · split
    · exact raises_answered _ _
    · split_ifs
      · exact failure_answered _ _ _ _ _
      · exact replies_answered (by simp [Reply.done])

variable [SchemaLib F]

theorem dispatch_roverPart (s : NtripCaster F) (b : Bearer F)
    (req : AdminRequest F) (m : Moment) :
    s.RoverPart req m (s.dispatch b req m) := by
  unfold dispatch
  dsimp only
  split_ifs
  · exact .answered (s.login_answered _ m) (.of_caster (by rw [login_server]))
  · exact .answered (s.tokenRefresh_answered _ m)
      (.of_caster (s.tokenRefresh_caster _ m))
  · exact .answered (s.tokenRevoke_answered b _ m)
      (.of_caster (s.tokenRevoke_caster b _ m))
  · exact .answered (replies_answered (by simp)) (.of_caster rfl)
  · cases hresource : s.resource b req req.bodyJson m with
    | none => exact s.operation_roverPart b req req.bodyJson m
    | some o =>
        exact .answered (resource_answered hresource)
          (resource_noNewName hresource)

theorem handleAdmin_roverPart (s : NtripCaster F) (req : AdminRequest F)
    (m : Moment) : s.RoverPart req m (s.handleAdmin req m) := by
  have hrefused {s' : NtripCaster F} {reply : Reply F}
      (hreply : reply ≠ .rover) (hcaster : s'.caster = s.caster) :
      s.RoverPart req m (s'.replies reply) :=
    .answered (replies_answered hreply) (.of_caster hcaster)
  have hauthenticated (buckets) {b? : Option (Bearer F)}
      {s' : NtripCaster F}
      (hauth : (s.withBuckets buckets).authenticate req m = (b?, s')) :
      s'.caster = s.caster := by
    have hsame := ((s.withBuckets buckets).authenticate_same req m).caster
    rwa [hauth] at hsame
  cases s.handleAdmin_gate req m with
  | filtered buckets reply hreply ho =>
      rw [ho]
      refine hrefused ?_ rfl
      rcases hreply with rfl | rfl <;> simp
  | unauthenticated buckets s' hauth ho =>
      rw [ho]
      exact hrefused (by simp) (hauthenticated buckets hauth)
  | authenticated buckets b s' hauth ho =>
      have hcaster := hauthenticated buckets hauth
      rcases ho with ho | ho
      · rw [ho]
        exact hrefused (by simp [Reply.failure]) hcaster
      · rw [ho]
        exact (s'.dispatch_roverPart b req m).of_same hcaster

/-! ## Runs -/

/-- The rover request that an admin request is read as, when it gets there. -/
def adminRover (req : AdminRequest F) : Caster.RoverRequest :=
  ⟨req.addr, req.path, req.headers⟩

/-- Every name that the event puts on the page can stand in a label. -/
def BringsPlain (s : NtripCaster F) : Event F → Prop
  | .connection event =>
      ∀ mp, s.caster.Brings event mp → Plain mp.toList
  | .admin req m =>
      (s.handleAdmin req m).reply = .ok .rover →
        s.caster.Records (adminRover req) →
          Plain (adminRover req).mountpoint.toList
  | _ => True

/-- The page behind the step is well formed. -/
def PageAfter (s : NtripCaster F) (event : Event F) : Prop :=
  ∀ s', s.step event = some s' → ∀ readings,
    WellFormedPage (s'.caster.metricsLines readings)

/-- Every name of the server can stand in a label. -/
def NamesPlain (s : NtripCaster F) : Prop :=
  ∀ mp, s.caster.HasName mp → Plain mp.toList

theorem step_namesPlain {s s' : NtripCaster F} {event : Event F}
    (hplain : s.NamesPlain) (hbrings : s.BringsPlain event)
    (hstep : s.step event = some s') : s'.NamesPlain := by
  intro mp hname
  cases event with
  | connection event =>
      rcases Option.map_eq_some_iff.mp hstep with ⟨c, hc, rfl⟩
      rcases Caster.HasName.of_step hc hname with hold | hnew
      · exact hplain mp hold
      · exact hbrings mp hnew
  | admin req m =>
      obtain rfl := Option.some.inj hstep
      cases s.handleAdmin_roverPart req m with
      | passed hreply hcaster =>
          rw [hcaster] at hname
          rcases hname.of_handleRover with hold | ⟨rfl, hrecords⟩
          · exact hplain mp hold
          · exact hbrings hreply hrecords
      | answered hanswered hnames => exact hplain mp (hnames mp hname)
  | snapshot mountpoint =>
      obtain rfl := Option.some.inj hstep
      exact hplain mp hname
  | reload =>
      obtain rfl := Option.some.inj hstep
      exact hplain mp (s.reloadFromDisk_noNewName mp hname)

theorem pageAfter_of_bringsPlain {s : NtripCaster F} {event : Event F}
    (hplain : s.NamesPlain) (hbrings : s.BringsPlain event) :
    s.PageAfter event := by
  intro s' hstep readings
  have hplain' := step_namesPlain hplain hbrings hstep
  apply (s'.caster.metricsPage_wellFormed_iff readings).mpr
  exact fun mp hmp => hplain' mp (.of_metricNames hmp)

theorem bringsPlain_of_pageAfter {s : NtripCaster F} {event : Event F}
    (hpage : s.PageAfter event) : s.BringsPlain event := by
  have hnames {s'} (hstep : s.step event = some s') :
      ∀ mp ∈ s'.caster.metricNames, Plain mp.toList :=
    (s'.caster.metricsPage_wellFormed_iff fun _ =>
      ⟨0, 0, [], 0, none, none, []⟩).mp (hpage s' hstep _)
  cases event with
  | connection event =>
      intro mp hbrings
      rcases Caster.Brings.step hbrings with ⟨c, hc⟩
      have hstep : s.step (.connection event) =
          some { s with caster := c } := by
        rw [step_connection, hc, Option.map_some]
      exact hnames hstep mp (hbrings.metricNames hc)
  | admin req m =>
      intro hreply hrecords
      cases s.handleAdmin_roverPart req m with
      | passed _ hcaster =>
          refine hnames rfl _ ?_
          rw [hcaster]
          exact Caster.handleRover_metricNames hrecords m.monotonic
      | answered hanswered _ => exact (hanswered hreply).elim
  | _ => trivial

omit [PyFloat F] [Crypto] [JwtLib F] [SchemaLib F] in
theorem new_namesPlain (s : NtripCaster F) (cfg : CasterCfg F) (mtls : Bool)
    (disabled : List (Json F)) :
    NamesPlain { s with caster := .new cfg mtls disabled } := by
  intro mp hname
  cases hname with
  | hub hmp => exact (List.not_mem_nil hmp).elim
  | refused hmp => exact (List.not_mem_nil hmp).elim
  | rover t ht => exact (List.not_mem_nil ht).elim
  | source t ht => exact (List.not_mem_nil ht).elim

/-- The first page of a server is well formed, and from there on the page
behind every step is so exactly if no step puts a name with a quote, a
backslash or a newline on it. -/
theorem run_page_wellFormed_iff (s : NtripCaster F) (cfg : CasterCfg F)
    (mtls : Bool) (disabled : List (Json F)) (events : List (Event F)) :
    (∀ readings, WellFormedPage
      ((Caster.new cfg mtls disabled : Caster F).metricsLines readings)) ∧
    (StepsMeet step PageAfter { s with caster := .new cfg mtls disabled }
        events ↔
      StepsMeet step BringsPlain { s with caster := .new cfg mtls disabled }
        events) := by
  have hfresh := s.new_namesPlain cfg mtls disabled
  refine ⟨fun readings => ?_, ?_, ?_⟩
  · apply (Caster.metricsPage_wellFormed_iff _ readings).mpr
    exact fun mp hmp => hfresh mp (.of_metricNames hmp)
  · exact StepsMeet.of_invariant (P := fun _ => True)
      (fun _ _ _ _ _ _ => trivial)
      (fun s event _ hpage => bringsPlain_of_pageAfter hpage) trivial
  · exact StepsMeet.of_invariant (P := NamesPlain)
      (fun s event s' hplain hbrings hstep =>
        step_namesPlain hplain hbrings hstep)
      (fun s event hplain hbrings => pageAfter_of_bringsPlain hplain hbrings)
      hfresh

end Requests

/-- A request without credentials, for a path with a quote in it. -/
def quotedHello : Caster.RoverRequest where
  addr := "10.0.0.9:5000"
  path := "/a\x22b"
  headers := []

theorem quoted_breaks_page :
    ¬ StepsMeet (@step ℚ _ noDigest (oneToken []) anyBody)
      (@PageAfter ℚ _ noDigest (oneToken []) anyBody)
      { smallServer (.obj []) with
        caster := .new (.basic "s3cret" []) false [] }
      [.connection (.roverRequest quotedHello 0)] := by
  rintro ⟨hpage, _⟩
  have hplain := @bringsPlain_of_pageAfter ℚ _ noDigest (oneToken []) anyBody
    _ _ hpage "a\x22b" ⟨by decide +kernel, trivial⟩
  exact (hplain quote (by decide)).2.1 rfl

end NtripCaster

end BabilCors
