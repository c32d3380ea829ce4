import BabilCors.OrderedRuns
import BabilCors.ReadLoopSafety

/-!
# Series of GSV sentences

The read loop joins the sentences of a series and takes the mean when it sees
the last one.  The number of the sentence before is kept and never compared; so
the mean is that of a whole series only if the last sentence comes directly
behind the others of its series.
-/

namespace BabilCors

open Py TransitionRuns OrderedRuns

variable {F : Type} [PyFloat F] {ι : Type}

/-! ## What is received -/

/-- The sentences of the lines, each with the series it was sent in. -/
def received (inputs : List (ι × ReadInput F)) : List (ι × Gsv) :=
  inputs.filterMap fun input =>
    (gsvOfLine? input.2.lineB).map fun gsv => (input.1, gsv)

def FirstSentence (sentence : ι × Gsv) : Prop :=
  sentence.2.sentNum = 1

/-- The next sentence of the same series. -/
structure NextSentence (previous sentence : ι × Gsv) : Prop where
  series : previous.1 = sentence.1
  total : previous.2.totalSent = sentence.2.totalSent
  number : sentence.2.sentNum = previous.2.sentNum + 1

/-- The latest sentences are one series from its first sentence to its last. -/
structure WholeSeries (history sentences : List (ι × Gsv)) : Prop where
  latest : sentences <:+ history
  one_series : ∀ first ∈ sentences, ∀ second ∈ sentences, first.1 = second.1
  numbered : ∀ i (hi : i < sentences.length),
    sentences[i].2.sentNum = i + 1
  total : ∀ sentence ∈ sentences, sentence.2.totalSent = sentences.length

def allSats (sentences : List (ι × Gsv)) : List GsvSat :=
  sentences.flatMap fun sentence => sentence.2.sats

/-- The mean of the positive SNRs, zero when there is none. -/
def averageSnr (sats : List GsvSat) : F :=
  let snrs := positiveSnrs sats
  if snrs = [] then floatZero else PyFloat.quot snrs.sum snrs.length

theorem meanSnr_eq {sats : List GsvSat} {mean : F}
    (hmean : meanSnr sats = .ok mean) : mean = averageSnr sats := by
  unfold meanSnr trueDiv at hmean
  unfold averageSnr
  dsimp only at hmean ⊢
  split_ifs at hmean ⊢ <;> cases hmean <;> rfl

/-! ## Runs of sentences -/

section Sentences

variable {history sentences : List (ι × Gsv)} {last : ι × Gsv}

theorem number_of_run (hrun : IsRun FirstSentence NextSentence sentences)
    {i : ℕ} (hi : i < sentences.length) :
    sentences[i].2.sentNum = i + 1 := by
  have hcounts := hrun.chain.imp fun _ _ hnext => hnext.number
  rw [number_of_chain (fun sentence => sentence.2.sentNum) hrun.head hcounts
    hi, add_comm]

theorem number_last (hlast : sentences.getLast? = some last)
    (hnumbered : ∀ i (hi : i < sentences.length),
      sentences[i].2.sentNum = i + 1) :
    last.2.sentNum = sentences.length := by
  have hpos : 0 < sentences.length :=
    List.length_pos_of_mem (List.mem_of_getLast? hlast)
  rw [List.getLast?_eq_getElem?, List.getElem?_eq_getElem (by omega)] at hlast
  rw [← Option.some.inj hlast, hnumbered]
  omega

/-- A whole series is a run whose last number is the total. -/
theorem wholeSeries_iff (hlast : sentences.getLast? = some last) :
    WholeSeries history sentences ↔
      IsRun FirstSentence NextSentence sentences ∧ sentences <:+ history ∧
        last.2.sentNum = last.2.totalSent := by
  have hmem : last ∈ sentences := List.mem_of_getLast? hlast
  constructor
  · intro hwhole
    refine ⟨⟨?_, ?_⟩, hwhole.latest, ?_⟩
    · intro first hfirst
      obtain ⟨rest, rfl⟩ := List.head?_eq_some_iff.mp hfirst
      exact hwhole.numbered 0 (Nat.succ_pos _)
    · apply List.isChain_iff_getElem.mpr
      intro i hi
      have hbefore := List.getElem_mem (Nat.lt_of_succ_lt hi)
      have hbehind := List.getElem_mem hi
      refine ⟨hwhole.one_series _ hbefore _ hbehind, ?_, ?_⟩
      · rw [hwhole.total _ hbefore, hwhole.total _ hbehind]
      · rw [hwhole.numbered, hwhole.numbered]
        push_cast
        rfl
    · rw [number_last hlast hwhole.numbered, hwhole.total last hmem]
  · rintro ⟨hrun, hlatest, hend⟩
    have hnumbered : ∀ i (hi : i < sentences.length),
        sentences[i].2.sentNum = i + 1 := fun i hi => number_of_run hrun hi
    refine ⟨hlatest, ?_, hnumbered, ?_⟩
    · intro first hfirst second hsecond
      have hshared := hrun.chain.imp fun _ _ hnext => hnext.series
      exact shared_of_chain Prod.fst hshared hfirst hsecond
    · intro sentence hsentence
      have hshared := hrun.chain.imp fun _ _ hnext => hnext.total
      rw [shared_of_chain (fun sentence => sentence.2.totalSent) hshared
        hsentence hmem, ← hend, number_last hlast hnumbered]

end Sentences

/-! ## One sentence -/

/-- What the end of a series asks for: an event about the SNR or jamming, or an
update of the shadow with the mean or the number of satellites. -/
def Effect.OfSeries : Effect F → Prop
  | .event call => call.code = "SNR_LOW" ∨ call.code = "JAMMING_SUSPECT"
  | .shadow _ payload =>
      payload.has "snr_mean" = true ∨ payload.has "total_sv" = true

/-- Nothing that the end of a series sets or asks for. -/
structure SeriesUntouched (s : NmeaState F) (result : LineResult F) :
    Prop where
  mean : result.state.lastGsvSnrMean = s.lastGsvSnrMean
  total : result.state.lastGsvTotalSv = s.lastGsvTotalSv
  jamming : result.state.jammingSuspectTs = s.jammingSuspectTs
  effects : ∀ effect ∈ result.effects, ¬ effect.OfSeries

/-- Behind every run of sentences its satellites are pending. -/
def Pending (history : List (ι × Gsv)) (s : NmeaState F) : Prop :=
  ∀ sentences last, IsRun FirstSentence NextSentence sentences →
    sentences <:+ history → sentences.getLast? = some last →
    s.gsvPendingTotal = last.2.totalSent ∧
      s.gsvPendingSats = some (allSats sentences)

omit [PyFloat F] in
theorem mergeGsv_ok_inv {s s' : NmeaState F} {gsv : Gsv} {sats : List GsvSat}
    (hmerge : mergeGsv s gsv = .ok (s', sats)) :
    sats = seriesSats s gsv ∧
      s' = { s with
        gsvPendingTotal := gsv.totalSent
        gsvPendingLastNum := gsv.sentNum
        gsvPendingSats := some sats } := by
  unfold mergeGsv at hmerge
  unfold seriesSats
  dsimp only at hmerge
  by_cases hstarts : StartsSeries s gsv
  · have hnew : gsv.sentNum = 1 ∨ s.gsvPendingTotal ≠ gsv.totalSent := hstarts
    rw [if_pos hnew] at hmerge
    rw [if_pos hstarts]
    obtain ⟨rfl, rfl⟩ := Prod.mk.inj (Except.ok.inj hmerge)
    exact ⟨rfl, rfl⟩
  · have hcontinues : ¬ (gsv.sentNum = 1 ∨
        s.gsvPendingTotal ≠ gsv.totalSent) := hstarts
    rw [if_neg hcontinues] at hmerge
    rw [if_neg hstarts]
    cases hsats : s.gsvPendingSats with
    | none =>
        rw [hsats] at hmerge
        cases hmerge
    | some pending =>
        rw [hsats] at hmerge
        obtain ⟨rfl, rfl⟩ := Prod.mk.inj (Except.ok.inj hmerge)
        have htotal : s.gsvPendingTotal = gsv.totalSent :=
          not_not.mp (not_or.mp hcontinues).2
        exact ⟨rfl, by rw [htotal]⟩

omit [PyFloat F] in
theorem Pending.concat {history : List (ι × Gsv)} {s s' : NmeaState F}
    {series : ι} {gsv : Gsv} (hpending : Pending history s)
    (htotal : s'.gsvPendingTotal = gsv.totalSent)
    (hsats : s'.gsvPendingSats = some (seriesSats s gsv)) :
    Pending (history ++ [(series, gsv)]) s' := by
  intro sentences last hrun hsuffix hlast
  rcases List.suffix_concat_iff.mp hsuffix with rfl | ⟨parts, rfl, hparts⟩
  · cases hlast
  rw [List.getLast?_concat] at hlast
  obtain rfl := Option.some.inj hlast
  refine ⟨htotal, ?_⟩
  rw [hsats, seriesSats]
  rcases hrun.last with ⟨rfl, hfirst⟩ | ⟨previous, hprevious, hnext, hbefore⟩
  · have hstarts : StartsSeries s gsv := .inl hfirst
    rw [if_pos hstarts]
    simp [allSats]
  · obtain ⟨htotal', hsats'⟩ :=
      hpending parts previous hbefore hparts hprevious
    have hnumber := number_last hprevious fun i hi => number_of_run hbefore hi
    have hcontinues : ¬ StartsSeries s gsv := by
      have hlater : gsv.sentNum ≠ 1 := by
        have hcount : gsv.sentNum = previous.2.sentNum + 1 := hnext.number
        have hpos : 0 < parts.length :=
          List.length_pos_of_mem (List.mem_of_getLast? hprevious)
        omega
      have hsame : s.gsvPendingTotal = gsv.totalSent :=
        htotal'.trans hnext.total
      exact not_or.mpr ⟨hlater, not_not.mpr hsame⟩
    rw [if_neg hcontinues, hsats']
    simp [allSats]

theorem completeGsv_ok {env : ReadEnv F} {s : NmeaState F} {gsv : Gsv}
    {sats : List GsvSat} {now : ℕ → F} {result : LineResult F}
    (hcomplete : completeGsv env s gsv sats now = .ok result) :
    result.state.lastGsvSnrMean = some (averageSnr sats) ∧
      result.state.lastGsvTotalSv = some gsv.totalSv ∧
      result.state.gsvPendingTotal = s.gsvPendingTotal ∧
      result.state.gsvPendingSats = s.gsvPendingSats := by
  unfold completeGsv at hcomplete
  obtain ⟨mean, hmean, hrest⟩ := bind_eq_ok.mp hcomplete
  obtain ⟨snrLow, -, hresult⟩ := bind_eq_ok.mp hrest
  cases hresult
  rw [meanSnr_eq hmean]
  refine ⟨?_, ?_, ?_, ?_⟩ <;> dsimp only <;> split_ifs <;> rfl

/-! ## One line -/

theorem processGsv_of_open {env : ReadEnv F} {s s' : NmeaState F} {gsv : Gsv}
    {sats : List GsvSat} {now : ℕ → F}
    (hmerge : mergeGsv { s with lastNmeaTs := now 0 } gsv = .ok (s', sats))
    (hopen : gsv.sentNum ≠ gsv.totalSent) :
    processGsv env s gsv now =
      .ok { state := s', effects := [], blocked := false } := by
  unfold processGsv
  simp only [bind, Except.bind, hmerge]
  exact if_neg hopen

theorem processGsv_of_last {env : ReadEnv F} {s s' : NmeaState F} {gsv : Gsv}
    {sats : List GsvSat} {now : ℕ → F}
    (hmerge : mergeGsv { s with lastNmeaTs := now 0 } gsv = .ok (s', sats))
    (hlast : gsv.sentNum = gsv.totalSent) :
    processGsv env s gsv now = completeGsv env s' gsv sats now := by
  unfold processGsv
  simp only [bind, Except.bind, hmerge]
  exact if_pos hlast

/-- What a line that is no GSV sentence leaves alone. -/
structure LeavesSeries (s : NmeaState F) (result : LineResult F) : Prop
    extends SeriesUntouched s result where
  pendingTotal : result.state.gsvPendingTotal = s.gsvPendingTotal
  pendingSats : result.state.gsvPendingSats = s.gsvPendingSats

omit [PyFloat F] in
theorem LeavesSeries.quiet {s s' : NmeaState F} {result : LineResult F}
    (hquiet : quietLine s' = .ok result)
    (hmean : s'.lastGsvSnrMean = s.lastGsvSnrMean)
    (htotal : s'.lastGsvTotalSv = s.lastGsvTotalSv)
    (hjamming : s'.jammingSuspectTs = s.jammingSuspectTs)
    (hpending : s'.gsvPendingTotal = s.gsvPendingTotal)
    (hsats : s'.gsvPendingSats = s.gsvPendingSats) :
    LeavesSeries s result := by
  obtain rfl := Except.ok.inj hquiet
  exact ⟨⟨hmean, htotal, hjamming, nofun⟩, hpending, hsats⟩

omit [PyFloat F] in
theorem shadow_notOfSeries (env : ReadEnv F)
    {payload : PyDict String (Json F)}
    (hmean : payload.has "snr_mean" = false)
    (htotal : payload.has "total_sv" = false) :
    ¬ (env.shadow payload).OfSeries := by
  rintro (hhas | hhas)
  · exact Bool.false_ne_true (hmean.symm.trans hhas)
  · exact Bool.false_ne_true (htotal.symm.trans hhas)

omit [PyFloat F] in
theorem event_notOfSeries {call : EventCall F} (code : String)
    (hcode : call.code = code) (hlow : code ≠ "SNR_LOW")
    (hjamming : code ≠ "JAMMING_SUSPECT") :
    ¬ (Effect.event call).OfSeries := by
  subst hcode
  exact not_or.mpr ⟨hlow, hjamming⟩

theorem spoofingEvent_notOfSeries [PyMath F] {env : ReadEnv F}
    {s : NmeaState F} {gga : Gga F} {now : F} {effect : Effect F}
    (hevent : spoofingEvent? env s gga now = some (some effect)) :
    ¬ effect.OfSeries := by
  unfold spoofingEvent? at hevent
  split at hevent
  · cases hevent
  by_cases hfirst : floatIsZero s.lastPosTs = true
  · rw [if_pos hfirst] at hevent
    cases hevent
  rw [if_neg hfirst] at hevent
  obtain ⟨dist, -, hevent⟩ := Option.bind_eq_some_iff.mp hevent
  obtain ⟨distThr, -, hevent⟩ := Option.bind_eq_some_iff.mp hevent
  obtain ⟨spdThr, -, hevent⟩ := Option.bind_eq_some_iff.mp hevent
  split_ifs at hevent
  · cases hevent
    exact event_notOfSeries "SPOOFING_SUSPECT" rfl (by decide) (by decide)
  · cases hevent

theorem processGga_leavesSeries [PyMath F] (env : ReadEnv F) (s : NmeaState F)
    (gga : Gga F) (now : ℕ → F) :
    LeavesSeries s (processGga env s gga now) := by
  have hnoFix : ∀ effect ∈ noFixEvent gga, ¬ effect.OfSeries := by
    intro effect heffect
    unfold noFixEvent at heffect
    split_ifs at heffect
    · rw [List.mem_singleton.mp heffect]
      exact event_notOfSeries "NO_FIX" rfl (by decide) (by decide)
    · cases heffect
  have hviolation (mode : String) : ¬ (violationEvent gga mode).OfSeries :=
    event_notOfSeries "GEOFENCE_VIOLATION" rfl (by decide) (by decide)
  have hposition (spoofing : List (Effect F))
      (hspoofing : ∀ effect ∈ spoofing, ¬ effect.OfSeries) :
      ∀ effect ∈ noFixEvent gga ++ spoofing ++
        [env.shadow [("lat", .float gga.lat), ("lon", .float gga.lon),
          ("fixq", .int gga.fixQ), ("nsat", .int gga.nsat),
          ("hdop", .float gga.hdop)]], ¬ effect.OfSeries := by
    intro effect heffect
    rcases List.mem_append.mp heffect with hevents | hshadow
    · rcases List.mem_append.mp hevents with hfix | hspoof
      · exact hnoFix effect hfix
      · exact hspoofing effect hspoof
    · rw [List.mem_singleton.mp hshadow]
      exact shadow_notOfSeries env rfl rfl
  unfold processGga
  dsimp only
  cases hevent : spoofingEvent? env
      { s with lastNmeaTs := now 0, lastGga := some gga } gga (now 1) with
  | none =>
      have heffects := hposition [] nofun
      dsimp only
      split
      · refine ⟨⟨rfl, rfl, rfl, ?_⟩, rfl, rfl⟩
        exact List.forall_mem_append.mpr
          ⟨heffects, List.forall_mem_singleton.mpr (hviolation _)⟩
      · exact ⟨⟨rfl, rfl, rfl, heffects⟩, rfl, rfl⟩
  | some event? =>
      have heffects := hposition event?.toList fun effect heffect => by
        obtain rfl := Option.mem_toList.mp heffect
        exact spoofingEvent_notOfSeries hevent
      dsimp only
      split
      · refine ⟨⟨rfl, rfl, rfl, ?_⟩, rfl, rfl⟩
        exact List.forall_mem_append.mpr
          ⟨heffects, List.forall_mem_singleton.mpr (hviolation _)⟩
      · exact ⟨⟨rfl, rfl, rfl, heffects⟩, rfl, rfl⟩

omit [PyFloat F] in
theorem processGsa_leavesSeries (env : ReadEnv F) (s : NmeaState F)
    (gsa : Gsa F) (now : ℕ → F) :
    LeavesSeries s (processGsa env s gsa now) := by
  refine ⟨⟨rfl, rfl, rfl, ?_⟩, rfl, rfl⟩
  intro effect heffect
  rw [List.mem_singleton.mp heffect]
  exact shadow_notOfSeries env rfl rfl

variable [PyMath F]

theorem processLine_of_gsv {env : ReadEnv F} {s : NmeaState F}
    {lineB : List UInt8} {now : ℕ → F} {gsv : Gsv}
    (hgsv : gsvOfLine? lineB = some gsv) :
    processLine env s lineB now = processGsv env s gsv now := by
  unfold gsvOfLine? at hgsv
  dsimp only at hgsv
  split_ifs at hgsv with hkind
  simp only [Bool.and_eq_true, Bool.not_eq_true'] at hkind
  obtain ⟨⟨⟨⟨⟨⟨hstart, hrmc⟩, hvtg⟩, hzda⟩, hgga⟩, hgsa⟩, hkind⟩ := hkind
  unfold processLine
  simp [hstart, hrmc, hvtg, hzda, hgga, hgsa, hkind, hgsv]

/-- A line is a GSV sentence, or it has nothing to do with a series. -/
theorem processLine_of_other {env : ReadEnv F} {s : NmeaState F}
    {lineB : List UInt8} {now : ℕ → F} {result : LineResult F}
    (hgsv : gsvOfLine? lineB = none)
    (hline : processLine env s lineB now = .ok result) :
    LeavesSeries s result := by
  unfold processLine at hline
  unfold gsvOfLine? at hgsv
  dsimp only at hline hgsv
  split_ifs at hline with hstart hrmc hvtg hzda hgga hgsa hkind
  · exact .quiet hline rfl rfl rfl rfl rfl
  · split at hline <;> exact .quiet hline rfl rfl rfl rfl rfl
  · split at hline <;> exact .quiet hline rfl rfl rfl rfl rfl
  · split at hline <;> exact .quiet hline rfl rfl rfl rfl rfl
  · split at hline
    · obtain rfl := Except.ok.inj hline
      exact processGga_leavesSeries env s _ now
    · exact .quiet hline rfl rfl rfl rfl rfl
  · split at hline
    · obtain rfl := Except.ok.inj hline
      exact processGsa_leavesSeries env s _ now
    · exact .quiet hline rfl rfl rfl rfl rfl
  · have hdollar : startsWith (strip (safeDecode lineB)) "$" = true := by
      simpa using hstart
    have hnone : parseGsv (strip (safeDecode lineB)) = none := by
      simpa [hdollar, hrmc, hvtg, hzda, hgga, hgsa, hkind] using hgsv
    rw [hnone] at hline
    exact .quiet hline rfl rfl rfl rfl rfl
  · exact .quiet hline rfl rfl rfl rfl rfl


/-! ## The runs of a session -/

/-- A last sentence comes directly behind the others of its series. -/
def EndsWhole (history : List (ι × Gsv)) (series : ι) (lineB : List UInt8) :
    Prop :=
  ∀ gsv, gsvOfLine? lineB = some gsv → gsv.sentNum = gsv.totalSent →
    ∃ sentences, sentences.getLast? = some (series, gsv) ∧
      WholeSeries (history ++ [(series, gsv)]) sentences

/-- What becomes of a line, with the sentences received before it. -/
inductive GsvOutcome (history : List (ι × Gsv)) (series : ι)
    (s : NmeaState F) (lineB : List UInt8) (result : LineResult F) : Prop
  /-- It is the last sentence of a whole series. -/
  | averaged (gsv : Gsv) (sentences : List (ι × Gsv))
      (hgsv : gsvOfLine? lineB = some gsv)
      (hlast : sentences.getLast? = some (series, gsv))
      (hwhole : WholeSeries (history ++ [(series, gsv)]) sentences)
      (hmean : result.state.lastGsvSnrMean =
        some (averageSnr (allSats sentences)))
      (htotal : result.state.lastGsvTotalSv = some gsv.totalSv)
  | untouched
      (hopen : ∀ gsv, gsvOfLine? lineB = some gsv →
        gsv.sentNum ≠ gsv.totalSent)
      (huntouched : SeriesUntouched s result)

/-- What one line leaves pending, and what it does when it ends a series. -/
theorem processLine_gsv {env : ReadEnv F} {history : List (ι × Gsv)}
    {series : ι} {s : NmeaState F} {input : ReadInput F}
    {result : LineResult F} (hpending : Pending history s)
    (hline : processLine env s input.lineB input.now = .ok result) :
    Pending (history ++ received [(series, input)]) result.state ∧
      (EndsWhole history series input.lineB →
        GsvOutcome history series s input.lineB result) := by
  cases hgsv : gsvOfLine? input.lineB with
  | none =>
      have hnothing : received [(series, input)] = [] := by
        simp [received, hgsv]
      have hleaves := processLine_of_other hgsv hline
      constructor
      · intro sentences last hrun hsuffix hlast
        rw [hnothing, List.append_nil] at hsuffix
        rw [hleaves.pendingTotal, hleaves.pendingSats]
        exact hpending sentences last hrun hsuffix hlast
      · intro _
        refine .untouched (fun gsv hgsv' => ?_) hleaves.toSeriesUntouched
        rw [hgsv] at hgsv'
        cases hgsv'
  | some gsv =>
      have hsentence : received [(series, input)] = [(series, gsv)] := by
        simp [received, hgsv]
      rw [processLine_of_gsv hgsv] at hline
      obtain ⟨⟨s', sats⟩, hmerge, -⟩ := bind_eq_ok.mp hline
      obtain ⟨rfl, hs'⟩ := mergeGsv_ok_inv hmerge
      have hstep {next : NmeaState F}
          (htotal : next.gsvPendingTotal = gsv.totalSent)
          (hsats : next.gsvPendingSats = some (seriesSats s gsv)) :
          Pending (history ++ [(series, gsv)]) next :=
        hpending.concat htotal hsats
      rw [hsentence]
      by_cases hlast : gsv.sentNum = gsv.totalSent
      · rw [processGsv_of_last hmerge hlast] at hline
        obtain ⟨hmean, htotal, hpendingTotal, hpendingSats⟩ :=
          completeGsv_ok hline
        rw [hs'] at hpendingTotal hpendingSats
        have hafter := hstep hpendingTotal hpendingSats
        refine ⟨hafter, fun hends => ?_⟩
        obtain ⟨sentences, hend, hwhole⟩ := hends gsv hgsv hlast
        obtain ⟨hrun, hlatest, -⟩ := (wholeSeries_iff hend).mp hwhole
        refine .averaged gsv sentences hgsv hend hwhole ?_ htotal
        have hsats := (hafter sentences _ hrun hlatest hend).2
        rw [hmean, ← Option.some.inj (hsats.symm.trans hpendingSats)]
      · rw [processGsv_of_open hmerge hlast] at hline
        obtain rfl := Except.ok.inj hline
        rw [hs']
        refine ⟨hstep rfl rfl, fun _ => ?_⟩
        refine .untouched (fun gsv' hgsv' => ?_) ⟨rfl, rfl, rfl, nofun⟩
        rw [hgsv] at hgsv'
        cases hgsv'
        exact hlast

omit [PyFloat F] [PyMath F] in
theorem received_append (first second : List (ι × ReadInput F)) :
    received (first ++ second) = received first ++ received second :=
  List.filterMap_append ..

theorem readStep_eq_some {env : ReadEnv F} {s next : NmeaState F}
    {input : ReadInput F} (hstep : readStep env s input = some next) :
    ∃ result, processLine env s input.lineB input.now = .ok result ∧
      result.state = next := by
  unfold readStep at hstep
  split_ifs at hstep
  cases hline : processLine env s input.lineB input.now with
  | error e =>
      rw [hline] at hstep
      cases hstep
  | ok result =>
      rw [hline] at hstep
      dsimp only at hstep
      split_ifs at hstep
      exact ⟨result, rfl, Option.some.inj hstep⟩

theorem pending_of_run {env : ReadEnv F} {start s : NmeaState F}
    {inputs : List (ι × ReadInput F)}
    (hrun : run (readStep env) start (inputs.map Prod.snd) = some s) :
    Pending (received inputs) s := by
  induction inputs using List.reverseRecOn generalizing s with
  | nil =>
      intro sentences last _ hsuffix hlast
      rw [List.suffix_nil.mp hsuffix] at hlast
      cases hlast
  | append_singleton inputs input ih =>
      rw [List.map_append, List.map_singleton] at hrun
      obtain ⟨previous, next, hbefore, hstep, hend⟩ := run_split hrun
      obtain rfl := Option.some.inj hend
      obtain ⟨result, hline, rfl⟩ := readStep_eq_some hstep
      rw [received_append]
      exact (processLine_gsv (ih hbefore) hline).1

/-- Whatever was received, a line sets the mean and the number of satellites
from a whole series and nothing else does, exactly if a last sentence comes
directly behind the others of its series. -/
theorem gsvOutcome_iff {env : ReadEnv F} {start s : NmeaState F}
    {before : List (ι × ReadInput F)} {series : ι} {input : ReadInput F}
    {result : LineResult F}
    (hrun : run (readStep env) start (before.map Prod.snd) = some s)
    (hline : processLine env s input.lineB input.now = .ok result) :
    GsvOutcome (received before) series s input.lineB result ↔
      EndsWhole (received before) series input.lineB := by
  constructor
  · intro houtcome gsv hgsv hlast
    cases houtcome with
    | averaged gsv' sentences hgsv' hend hwhole _ _ =>
        obtain rfl := Option.some.inj (hgsv.symm.trans hgsv')
        exact ⟨sentences, hend, hwhole⟩
    | untouched hopen _ => exact (hopen gsv hgsv hlast).elim
  · exact (processLine_gsv (pending_of_run hrun) hline).2

omit [PyFloat F] [PyMath F] in
/-- In a session without losses, repetitions and exchanges of order every last
sentence comes directly behind the others of its series. -/
theorem endsWhole_of_inOrder {before after : List (ι × ReadInput F)}
    {series : ι} {input : ReadInput F}
    (horder : InOrder FirstSentence NextSentence
      (received (before ++ (series, input) :: after))) :
    EndsWhole (received before) series input.lineB := by
  intro gsv hgsv hlast
  have hsentence : received [(series, input)] = [(series, gsv)] := by
    simp [received, hgsv]
  rw [List.append_cons, received_append, received_append, hsentence] at horder
  obtain ⟨sentences, hrun, hlatest, hend⟩ := horder.of_append.exists_run
  exact ⟨sentences, hend, (wholeSeries_iff hend).mpr ⟨hrun, hlatest, hlast⟩⟩

/-- Whatever was received, a line sets the mean and the number of satellites
from a whole series and nothing else does, exactly if a last sentence comes
directly behind the others of its series; and so it does in a session in
order. -/
theorem gsv_series_averaged {env : ReadEnv F} {start s : NmeaState F}
    {before : List (ι × ReadInput F)} {series : ι} {input : ReadInput F}
    {result : LineResult F}
    (hrun : run (readStep env) start (before.map Prod.snd) = some s)
    (hline : processLine env s input.lineB input.now = .ok result) :
    (GsvOutcome (received before) series s input.lineB result ↔
      EndsWhole (received before) series input.lineB) ∧
    (InOrder FirstSentence NextSentence
        (received (before ++ [(series, input)])) →
      GsvOutcome (received before) series s input.lineB result) := by
  have hiff : GsvOutcome (received before) series s input.lineB result ↔
      EndsWhole (received before) series input.lineB :=
    gsvOutcome_iff hrun hline
  exact ⟨hiff, fun horder => hiff.mpr (endsWhole_of_inOrder horder)⟩

/-! ## Two sentences -/

/-- A first sentence and the last sentence of a series with the same total,
which need not be the next one. -/
theorem two_sentences [PyMath ℚ] {first last : ReadInput ℚ} {g g' : Gsv}
    {a b : GsvSat} (hg : gsvOfLine? first.lineB = some g)
    (hone : g.sentNum = 1) (hopen : g.sentNum ≠ g.totalSent)
    (hline : ¬ (first.lineB = [] ∨ 1024 < first.lineB.length))
    (hg' : gsvOfLine? last.lineB = some g') (hlater : g'.sentNum ≠ 1)
    (hend : g'.sentNum = g'.totalSent) (hsame : g.totalSent = g'.totalSent)
    (hsats : g.sats = [a]) (hsats' : g'.sats = [b]) (ha : a.snr = 40)
    (hb : b.snr = 20) :
    ∃ s result, run (readStep defaultEnv) .new [first] = some s ∧
      processLine defaultEnv s last.lineB last.now = .ok result ∧
      s.lastGsvSnrMean = none ∧
      result.state.lastGsvSnrMean = some 30 := by
  have hsnrs : positiveSnrs [a, b] = [40, 20] := by
    simp [positiveSnrs, ha, hb]
  have hmean : ¬ MeanOverflows [a, b] := by
    unfold MeanOverflows
    rw [hsnrs]
    decide +kernel
  have haverage : (averageSnr [a, b] : ℚ) = 30 := by
    unfold averageSnr
    rw [hsnrs]
    decide +kernel
  obtain ⟨s, hmerge⟩ := mergeGsv_ok (.inl (.inl hone) : StartsSeries
    ({ NmeaState.new with lastNmeaTs := first.now 0 } : NmeaState ℚ) g ∨ _)
  obtain ⟨-, hs⟩ := mergeGsv_ok_inv hmerge
  have hfresh : StartsSeries
      ({ NmeaState.new with lastNmeaTs := first.now 0 } : NmeaState ℚ) g :=
    .inl hone
  rw [seriesSats, if_pos hfresh] at hs
  have hpending : ({ s with lastNmeaTs := last.now 0 } :
      NmeaState ℚ).gsvPendingSats ≠ none := by
    rw [hs]
    nofun
  obtain ⟨s', hmerge'⟩ : ∃ s', mergeGsv ({ s with lastNmeaTs := last.now 0 } :
      NmeaState ℚ) g' = .ok (s', seriesSats _ g') :=
    mergeGsv_ok (.inr hpending)
  have hcontinues : ¬ StartsSeries
      ({ s with lastNmeaTs := last.now 0 } : NmeaState ℚ) g' := by
    rw [hs]
    exact not_or.mpr ⟨hlater, not_not.mpr hsame⟩
  have hjoined : seriesSats ({ s with lastNmeaTs := last.now 0 } :
      NmeaState ℚ) g' = [a, b] := by
    rw [seriesSats, if_neg hcontinues, hs, hsats, hsats']
    rfl
  rw [hjoined] at hmerge'
  have hthreshold : ¬ ThresholdOverflows defaultEnv := by
    rintro ⟨n, hn, hoverflow⟩
    cases hn
    exact absurd hoverflow (by decide +kernel)
  obtain ⟨result, hresult⟩ := (completeGsv_ok_iff numericThresholds_default
    s' g' _ last.now).mpr ⟨hmean, hthreshold⟩
  refine ⟨s, result, ?_, ?_, ?_, haverage ▸ (completeGsv_ok hresult).1⟩
  · rw [run, readStep, if_neg hline, processLine_of_gsv hg,
      processGsv_of_open hmerge hopen]
    rfl
  · rw [processLine_of_gsv hg', processGsv_of_last hmerge' hend, hresult]
  · rw [hs]
    rfl

def oneOfTwo : ReadInput ℚ := lineAtZero "$GPGSV,2,1,02,01,40,083,40*42"

def twoOfTwo : ReadInput ℚ := lineAtZero "$GPGSV,2,2,02,02,17,308,20*46"

def oneOfThree : ReadInput ℚ := lineAtZero "$GPGSV,3,1,03,01,40,083,40*42"

def threeOfThree : ReadInput ℚ :=
  lineAtZero "$GPGSV,3,3,03,03,13,172,20*4D"

theorem gsv_series_averaged_two :
    ∃ (s : NmeaState ℚ) (result : LineResult ℚ),
      GsvOutcome (received [((), oneOfTwo)]) () s twoOfTwo.lineB result ∧
        result.state.lastGsvSnrMean = some 30 := by
  have hone : gsvOfLine? oneOfTwo.lineB =
      some ⟨2, 1, 2, [⟨1, 40, 83, 40⟩]⟩ := by
    decide +kernel
  have htwo : gsvOfLine? twoOfTwo.lineB =
      some ⟨2, 2, 2, [⟨2, 17, 308, 20⟩]⟩ := by
    decide +kernel
  obtain ⟨s, result, hrun, hline, -, hmean⟩ := @two_sentences noMath _ _ _ _
    _ _ hone rfl (by decide) (by decide +kernel) htwo (by decide) rfl rfl rfl
    rfl rfl rfl
  refine ⟨s, result, ?_, hmean⟩
  apply (@gsv_series_averaged ℚ _ Unit noMath _ _ _ [((), oneOfTwo)] ()
    twoOfTwo _ hrun hline).2
  have hreceived : received [((), oneOfTwo), ((), twoOfTwo)] =
      [((), ⟨2, 1, 2, [⟨1, 40, 83, 40⟩]⟩),
        ((), ⟨2, 2, 2, [⟨2, 17, 308, 20⟩]⟩)] := by
    simp [received, hone, htwo]
  rw [List.singleton_append, hreceived]
  refine ⟨?_, .cons_cons (.inr ⟨rfl, rfl, rfl⟩) (.singleton _)⟩
  rintro _ ⟨⟩
  exact rfl

/-- Without the second sentence the mean is that of the first and the
third. -/
theorem gsv_series_mixed :
    received [((), oneOfThree), ((), threeOfThree)] =
      [((), ⟨3, 1, 3, [⟨1, 40, 83, 40⟩]⟩),
        ((), ⟨3, 3, 3, [⟨3, 13, 172, 20⟩]⟩)] ∧
    ∃ s result,
      @run _ _ (@readStep ℚ _ noMath defaultEnv) .new [oneOfThree] = some s ∧
      @processLine ℚ _ noMath defaultEnv s threeOfThree.lineB
        threeOfThree.now = .ok result ∧
      s.lastGsvSnrMean = none ∧ result.state.lastGsvSnrMean = some 30 ∧
      ¬ GsvOutcome (received [((), oneOfThree)]) () s threeOfThree.lineB
        result := by
  have hone : gsvOfLine? oneOfThree.lineB =
      some ⟨3, 1, 3, [⟨1, 40, 83, 40⟩]⟩ := by
    decide +kernel
  have hthree : gsvOfLine? threeOfThree.lineB =
      some ⟨3, 3, 3, [⟨3, 13, 172, 20⟩]⟩ := by
    decide +kernel
  obtain ⟨s, result, hrun, hline, hnone, hmean⟩ := @two_sentences noMath _ _
    _ _ _ _ hone rfl (by decide) (by decide +kernel) hthree (by decide) rfl
    rfl rfl rfl rfl rfl
  refine ⟨by simp [received, hone, hthree], s, result, hrun, hline, hnone,
    hmean, ?_⟩
  intro houtcome
  obtain ⟨sentences, hlast, hwhole⟩ := (@gsvOutcome_iff ℚ _ Unit noMath _ _ _
    [((), oneOfThree)] () threeOfThree _ hrun hline).mp houtcome _ hthree rfl
  have htotal : (3 : ℤ) = sentences.length :=
    hwhole.total _ (List.mem_of_getLast? hlast)
  have hlength : sentences.length ≤ 2 := by
    simpa [received, hone] using hwhole.latest.length_le
  omega

end BabilCors
