import BabilCors.AdminReadOnly
import BabilCors.HotReload

/-!
# Which validated configurations start

The constructor converts some twenty values of the security section, and the
validation compiles two of them.  The conversions succeed on values of certain
shapes; a validated document starts exactly if the other settings have them.
-/

namespace Py

theorem exists_bind_ok {α β : Type} {x : Except PyErr α} {a : α}
    {f : α → Except PyErr β} (hx : x = .ok a) (hf : ∃ b, f a = .ok b) :
    ∃ b, x >>= f = .ok b := by
  rcases hf with ⟨b, hb⟩
  exact ⟨b, bind_eq_ok.mpr ⟨a, hx, hb⟩⟩

theorem exists_mapM_ok_iff {α β : Type} {f : α → Except PyErr β}
    {l : List α} :
    (∃ out, l.mapM f = .ok out) ↔ ∀ x ∈ l, ∃ y, f x = .ok y := by
  induction l with
  | nil => simp [pure, Except.pure]
  | cons x l ih =>
      rw [List.forall_mem_cons, ← ih]
      simp only [List.mapM_cons]
      constructor
      · rintro ⟨out, hout⟩
        rcases bind_eq_ok.mp hout with ⟨y, hy, hout⟩
        rcases bind_eq_ok.mp hout with ⟨ys, hys, _⟩
        exact ⟨⟨y, hy⟩, ys, hys⟩
      · rintro ⟨⟨y, hy⟩, ys, hys⟩
        exact ⟨y :: ys, by rw [hy, hys]; rfl⟩

theorem forall₂_of_mapM_ok {α β : Type} {f : α → Except PyErr β}
    {l : List α} {out : List β} (hout : l.mapM f = .ok out) :
    List.Forall₂ (fun x y => f x = .ok y) l out := by
  induction l generalizing out with
  | nil =>
      obtain rfl : [] = out := Except.ok.inj hout
      exact .nil
  | cons x l ih =>
      rw [List.mapM_cons] at hout
      rcases bind_eq_ok.mp hout with ⟨first, hfirst, hout⟩
      rcases bind_eq_ok.mp hout with ⟨rest, hrest, hout⟩
      obtain rfl : first :: rest = out := Except.ok.inj hout
      exact .cons hfirst (ih hrest)

theorem mem_of_mapM_ok {α β : Type} {f : α → Except PyErr β} {l : List α}
    {out : List β} (hout : l.mapM f = .ok out) (y : β) :
    y ∈ out ↔ ∃ x ∈ l, f x = .ok y := by
  have hpairs := forall₂_of_mapM_ok hout
  clear hout
  induction hpairs with
  | nil => simp
  | @cons x first l out hfirst _ ih =>
      have hrest : y ∈ out ↔ ∃ x ∈ l, f x = .ok y := ih
      rw [List.mem_cons, hrest, List.exists_mem_cons_iff, hfirst,
        Except.ok.injEq, eq_comm]

/-- A fold whose steps succeed or fail whatever was gathered before. -/
theorem exists_foldlM_ok_iff {α σ : Type} {f : σ → α → Except PyErr σ}
    {P : α → Prop} (hf : ∀ s x, (∃ s', f s x = .ok s') ↔ P x) {l : List α}
    {s : σ} : (∃ s', l.foldlM f s = .ok s') ↔ ∀ x ∈ l, P x := by
  induction l generalizing s with
  | nil => simp [pure, Except.pure]
  | cons x l ih =>
      rw [List.forall_mem_cons, List.foldlM_cons, ← hf s x]
      constructor
      · rintro ⟨out, hout⟩
        rcases bind_eq_ok.mp hout with ⟨s', hs', hout⟩
        exact ⟨⟨s', hs'⟩, ih.mp ⟨out, hout⟩⟩
      · rintro ⟨⟨s', hs'⟩, hl⟩
        rcases ih.mpr hl with ⟨out, hout⟩
        exact ⟨out, bind_eq_ok.mpr ⟨s', hs', hout⟩⟩

namespace Json

variable {F : Type}

/-! ## The shapes that convert -/

def Hashable : Json F → Prop
  | arr _ | obj _ => False
  | _ => True

/-- A value that a loop can go through, and every element has the property. -/
def EachItem (P : Json F → Prop) : Json F → Prop
  | arr items => ∀ item ∈ items, P item
  | str s => ∀ c ∈ s.toList, P (str (.singleton c))
  | obj fields => ∀ field ∈ fields, P (str field.1)
  | _ => False

/-- An entry of `dict(j)`. -/
def PairLike : Json F → Prop
  | arr items => items.length = 2 ∧ ∀ key ∈ items.head?, key.Hashable
  | str s => s.toList.length = 2
  | obj fields => fields.length = 2
  | _ => False

def DictLike : Json F → Prop
  | obj _ => True
  | arr items => ∀ item ∈ items, item.PairLike
  | str s => s = ""
  | _ => False

theorem exists_iter_iff {P : Json F → Prop} {j : Json F} :
    (∃ items, j.iter = .ok items ∧ ∀ item ∈ items, P item) ↔
      j.EachItem P := by
  cases j with
  | obj fields =>
      constructor
      · rintro ⟨items, hitems, hP⟩
        obtain rfl := Except.ok.inj hitems
        exact List.forall_mem_map.mp hP
      · exact fun hP => ⟨_, rfl, List.forall_mem_map.mpr hP⟩
  | null | bool _ | int _ | float _ | str _ | arr _ => simp [iter, EachItem]

theorem toSet_ok_iff {j : Json F} :
    (∃ items, j.toSet = .ok items) ↔ j.EachItem Hashable := by
  rw [← exists_iter_iff]
  unfold toSet
  constructor
  · rintro ⟨out, hout⟩
    rcases bind_eq_ok.mp hout with ⟨items, hitems, hout⟩
    refine ⟨items, hitems, fun item hitem => ?_⟩
    rcases exists_mapM_ok_iff.mp ⟨out, hout⟩ item hitem with ⟨_, hsame⟩
    cases item with
    | arr _ | obj _ => cases hsame
    | null | bool _ | int _ | float _ | str _ => trivial
  · rintro ⟨items, hitems, hhash⟩
    rw [hitems]
    refine exists_mapM_ok_iff.mpr fun item hitem => ?_
    have hkey := hhash item hitem
    cases item with
    | arr _ | obj _ => exact hkey.elim
    | null | bool _ | int _ | float _ | str _ => exact ⟨_, rfl⟩

theorem unpack2_ok_iff {j key value : Json F} :
    j.unpack2 = .ok (key, value) ↔ j.iter = .ok [key, value] := by
  unfold unpack2
  split
  next a b hiter => simp [hiter]
  next items hpair hiter =>
    rw [hiter]
    constructor
    · intro h
      cases h
    · intro h
      obtain rfl := Except.ok.inj h
      exact (hpair key value rfl).elim
  next hiter => simp [hiter]

/-- The unpacking of one entry of `dict(j)`, with the hash of its key. -/
theorem pairLike_iff {j : Json F} :
    j.PairLike ↔
      ∃ key value, j.iter = .ok [key, value] ∧ key.Hashable := by
  cases j with
  | arr items =>
      constructor
      · rintro ⟨hlength, hkey⟩
        rcases List.length_eq_two.mp hlength with ⟨key, value, rfl⟩
        exact ⟨key, value, rfl, hkey key rfl⟩
      · rintro ⟨key, value, hpair, hkey⟩
        obtain rfl := Except.ok.inj hpair
        refine ⟨rfl, fun first hfirst => ?_⟩
        obtain rfl := Option.some.inj hfirst
        exact hkey
  | str s =>
      constructor
      · intro hlength
        rcases List.length_eq_two.mp hlength with ⟨a, b, hs⟩
        refine ⟨str (.singleton a), str (.singleton b), ?_, trivial⟩
        simp [iter, hs]
      · rintro ⟨key, value, hpair, _⟩
        have hlength := congrArg List.length (Except.ok.inj hpair)
        rwa [List.length_map] at hlength
  | obj fields =>
      constructor
      · intro hlength
        rcases List.length_eq_two.mp hlength with ⟨a, b, rfl⟩
        exact ⟨str a.1, str b.1, rfl, trivial⟩
      · rintro ⟨key, value, hpair, _⟩
        have hlength := congrArg List.length (Except.ok.inj hpair)
        rwa [List.length_map] at hlength
  | null | bool _ | int _ | float _ => simp [PairLike, iter]

/-- What `dict(j)` does with one element. -/
def addEntry (d : PyDict String (Json F)) (item : Json F) :
    Except PyErr (PyDict String (Json F)) := do
  let (key, value) ← item.unpack2
  match key with
  | str key => return PyDict.set d key value
  | arr _ | obj _ =>
      throw (.typeError ("unhashable type: '" ++ key.typeName ++ "'"))
  | _ => return d

theorem addEntry_ok_iff (d : PyDict String (Json F)) (item : Json F) :
    (∃ d', addEntry d item = .ok d') ↔ item.PairLike := by
  rw [pairLike_iff]
  constructor
  · rintro ⟨d', hd'⟩
    rcases bind_eq_ok.mp hd' with ⟨⟨key, value⟩, hpair, hd'⟩
    refine ⟨key, value, unpack2_ok_iff.mp hpair, ?_⟩
    cases key with
    | arr _ | obj _ => cases hd'
    | null | bool _ | int _ | float _ | str _ => trivial
  · rintro ⟨key, value, hpair, hkey⟩
    unfold addEntry
    rw [unpack2_ok_iff.mpr hpair]
    cases key with
    | arr _ | obj _ => exact hkey.elim
    | null | bool _ | int _ | float _ | str _ => exact ⟨_, rfl⟩

theorem toDict_ok_iff {j : Json F} :
    (∃ d, j.toDict = .ok d) ↔ j.DictLike := by
  have hfold (items : List (Json F)) :
      (∃ d, items.foldlM addEntry [] = .ok d) ↔
        ∀ item ∈ items, item.PairLike :=
    exists_foldlM_ok_iff addEntry_ok_iff
  cases j with
  | arr items => exact hfold items
  | obj fields => simp [toDict, DictLike]
  | str s =>
      refine (hfold (s.toList.map fun c => str (.singleton c))).trans ?_
      rw [List.forall_mem_map]
      constructor
      · intro hpairs
        by_contra hne
        cases hs : s.toList with
        | nil => exact hne (String.toList_eq_nil_iff.mp hs)
        | cons c cs =>
            have hshort := hpairs c (by simp [hs])
            simp [PairLike] at hshort
      · rintro rfl
        simp
  | null | bool _ | int _ | float _ =>
      simp [toDict, iter, DictLike, bind, Except.bind]

section Numbers

variable [PyFloat F]

def IntLike : Json F → Prop
  | bool _ | int _ => True
  | float x => (PyFloat.trunc? x).isSome
  | str s => (int? s).isSome
  | _ => False

def FloatLike : Json F → Prop
  | bool _ | float _ => True
  | int n => n.natAbs < floatBound
  | str s => (PyFloat.ofString? s : Option F).isSome
  | _ => False

theorem pyInt_ok_iff {j : Json F} : (∃ n, j.pyInt = .ok n) ↔ j.IntLike := by
  cases j with
  | float x =>
      cases hx : PyFloat.trunc? x with
      | some n => simp [pyInt, intOfFloat, IntLike, hx]
      | none => cases hnan : PyFloat.isNaN x <;>
          simp [pyInt, intOfFloat, IntLike, hx, hnan]
  | str s => cases hs : int? s <;> simp [pyInt, IntLike, hs]
  | null | bool _ | int _ | arr _ | obj _ => simp [pyInt, IntLike]

theorem pyFloat_ok_iff {j : Json F} :
    (∃ x, j.pyFloat = .ok x) ↔ j.FloatLike := by
  cases j with
  | int n =>
      by_cases hlarge : floatBound ≤ n.natAbs
      · simp [pyFloat, floatOfInt, FloatLike, hlarge]
      · simp [pyFloat, floatOfInt, FloatLike, hlarge, not_le.mp hlarge]
  | str s =>
      cases hs : (PyFloat.ofString? s : Option F) <;>
        simp [pyFloat, FloatLike, hs]
  | null | bool _ | float _ | arr _ | obj _ => simp [pyFloat, FloatLike]

end Numbers

end Json

end Py

namespace BabilCors

open Py IpAddress

variable {F : Type} [PyFloat F]

/-! ## The settings that the validation does not look at -/

/-- A blank entry, or a network once `/32` stands behind a text without a
slash. -/
def IpEntry (value : Json F) : Prop :=
  let s := strip value.pyStr
  s = "" ∨
    (ipNetwork? (if '/' ∈ s.toList then s else s ++ "/32")).isSome

def intSettings : List String :=
  ["admin_rate_limit_per_min", "audit_max_bytes", "audit_backups",
    "admin_jwt_exp_s", "admin_jwt_refresh_exp_s", "iot_mqtt_port",
    "api_ws_port", "shadow_ttl_s"]

def dictSettings : List String :=
  ["audit_http_headers", "diagnostics"]

/-- The setting is missing or false, or it has the property. -/
def UnlessFalse (settings : PyDict String (Json F)) (key : String)
    (P : Json F → Prop) : Prop :=
  ∀ value, settings.get? key = some value → value.truthy = true → P value

structure ConvertibleSettings (settings : PyDict String (Json F)) :
    Prop where
  disabledMountpoints : ∀ value,
    settings.get? "disabled_mountpoints" = some value →
      value.EachItem Json.Hashable
  adminIpAllow : ∀ value, settings.get? "admin_ip_allow" = some value →
    value.EachItem IpEntry
  ints : ∀ key ∈ intSettings, UnlessFalse settings key Json.IntLike
  auditHttpTimeout :
    UnlessFalse settings "audit_http_timeout_s" Json.FloatLike
  dicts : ∀ key ∈ dictSettings, UnlessFalse settings key Json.DictLike

/-- The document has no security section or a false one, or the section is a
dictionary whose settings convert. -/
def ConvertibleSecurity (raw : Json F) : Prop :=
  ∀ security, raw.get "security" = .ok (some security) →
    security.truthy = true →
      ∃ settings, security = .obj settings ∧ ConvertibleSettings settings

theorem compileIpNet_ok_iff {value : Json F} :
    (∃ network?, compileIpNet value = .ok network?) ↔ IpEntry value := by
  unfold compileIpNet IpEntry
  dsimp only
  by_cases hblank : strip value.pyStr = ""
  · simp [hblank]
  · rw [if_neg hblank]
    generalize (if '/' ∈ (strip value.pyStr).toList then strip value.pyStr
      else strip value.pyStr ++ "/32") = text
    cases ipNetwork? text <;> simp [hblank]

theorem compileIpNets_ok_iff {values : Json F} :
    (∃ networks, compileIpNets values = .ok networks) ↔
      values.EachItem IpEntry := by
  rw [← Json.exists_iter_iff]
  unfold compileIpNets
  constructor
  · rintro ⟨out, hout⟩
    rcases bind_eq_ok.mp hout with ⟨items, hitems, hout⟩
    rcases bind_eq_ok.mp hout with ⟨compiled, hcompiled, _⟩
    refine ⟨items, hitems, fun item hitem => ?_⟩
    exact compileIpNet_ok_iff.mp
      (exists_mapM_ok_iff.mp ⟨compiled, hcompiled⟩ item hitem)
  · rintro ⟨items, hitems, hentries⟩
    have hcompiles : ∃ compiled, items.mapM compileIpNet = .ok compiled :=
      exists_mapM_ok_iff.mpr fun item hitem =>
        compileIpNet_ok_iff.mpr (hentries item hitem)
    rcases hcompiles with ⟨compiled, hcompiled⟩
    refine ⟨compiled.filterMap id, bind_eq_ok.mpr ⟨items, hitems, ?_⟩⟩
    exact bind_eq_ok.mpr ⟨compiled, hcompiled, rfl⟩

/-! ## One setting -/

theorem securityD_obj (settings : PyDict String (Json F)) (key : String)
    (default : Json F) :
    securityD (.obj settings) key default =
      .ok ((settings.get? key).getD default) := by
  unfold securityD
  rw [orElse_obj]
  rfl

theorem securityToken_obj (environ : Env)
    (settings : PyDict String (Json F)) :
    securityToken environ (.obj settings) =
      .ok (resolveSecret environ
        ((settings.get? "admin_token").getD (.str "")).pyStr) := by
  unfold securityToken
  rw [securityD_obj]
  rfl

theorem securityJwtSecret_obj (environ : Env)
    (settings : PyDict String (Json F)) :
    securityJwtSecret environ (.obj settings) =
      .ok (resolveSecret environ
        ((settings.get? "admin_jwt_secret").getD (.str "")).pyStr) := by
  unfold securityJwtSecret
  rw [securityD_obj]
  rfl

omit [PyFloat F] in
theorem forall_getD_iff {P : Json F → Prop} {value? : Option (Json F)}
    {default : Json F} (hdefault : P default) :
    P (value?.getD default) ↔ ∀ value, value? = some value → P value := by
  cases value? with
  | none => simpa using hdefault
  | some value => simp

theorem unlessFalse_iff {P : Json F → Prop}
    {settings : PyDict String (Json F)} {key : String} {default : Json F}
    (hdefault : P default) :
    P (((settings.get? key).getD default).orElse default) ↔
      UnlessFalse settings key P := by
  unfold UnlessFalse Json.orElse
  cases settings.get? key with
  | none => simpa using hdefault
  | some value =>
      cases hvalue : value.truthy with
      | true => simp [hvalue]
      | false => simpa [hvalue] using hdefault

theorem floatLike_float (x : F) : (Json.float x).FloatLike :=
  trivial

theorem securityInt_ok_iff (settings : PyDict String (Json F))
    (key : String) (default : ℤ) :
    (∃ n, securityInt (.obj settings) key default = .ok n) ↔
      UnlessFalse settings key Json.IntLike := by
  have hread : securityInt (.obj settings) key default =
      (((settings.get? key).getD (.int default)).orElse
        (.int default)).pyInt := by
    unfold securityInt
    rw [securityD_obj]
    rfl
  rw [hread]
  exact Json.pyInt_ok_iff.trans (unlessFalse_iff trivial)

theorem securityDict_ok_iff (settings : PyDict String (Json F))
    (key : String) :
    (∃ d, securityDict (.obj settings) key = .ok d) ↔
      UnlessFalse settings key Json.DictLike := by
  unfold securityDict
  rw [securityD_obj]
  exact Json.toDict_ok_iff.trans (unlessFalse_iff trivial)

theorem securityDisabled_ok_iff {settings : PyDict String (Json F)} :
    (∃ names, securityDisabled (.obj settings) = .ok names) ↔
      ∀ value, settings.get? "disabled_mountpoints" = some value →
        value.EachItem Json.Hashable := by
  unfold securityDisabled
  rw [securityD_obj]
  refine Json.toSet_ok_iff.trans (forall_getD_iff ?_)
  simp [Json.EachItem]

theorem securityNets_ok_iff {settings : PyDict String (Json F)}
    {key : String} :
    (∃ networks, securityNets (.obj settings) key = .ok networks) ↔
      ∀ value, settings.get? key = some value → value.EachItem IpEntry := by
  refine compileIpNets_ok_iff.trans (forall_getD_iff ?_)
  simp [Json.EachItem]

/-! ## The constructor -/

theorem securityNets_of_errors {settings : PyDict String (Json F)}
    (hvalid : securityErrors (.obj settings) = []) :
    (∃ networks, securityNets (.obj settings) "ip_allow" = .ok networks) ∧
      ∃ networks, securityNets (.obj settings) "ip_deny" = .ok networks := by
  have hallow : securityNets (.obj settings) "ip_allow" =
      (Json.obj settings).getD "ip_allow" (.arr []) >>= compileIpNets := rfl
  have hdeny : securityNets (.obj settings) "ip_deny" =
      (Json.obj settings).getD "ip_deny" (.arr []) >>= compileIpNets := rfl
  rw [hallow, hdeny]
  unfold securityErrors at hvalid
  rw [if_pos (by rfl)] at hvalid
  dsimp only at hvalid
  split at hvalid
  next allow deny hallow hdeny => exact ⟨⟨allow, hallow⟩, deny, hdeny⟩
  next => cases hvalid

theorem securityErrors_of_checkedConfig {environ : Env} {raw : Json F}
    {cfg : CasterCfg F}
    (hchecked : NtripCaster.checkedConfig environ raw = .ok cfg) :
    loadConfig environ raw = .ok cfg ∧ securityErrors cfg.security = [] := by
  rcases bind_eq_ok.mp hchecked with ⟨loaded, hload, hchecked⟩
  rcases bind_eq_ok.mp hchecked with ⟨_, hvalid, hsame⟩
  obtain rfl := Except.ok.inj hsame
  have hempty := validateConfig_eq_ok.mp hvalid
  simp only [configErrors, List.append_eq_nil_iff] at hempty
  exact ⟨hload, hempty.1.2⟩

/-- The settings that a loaded document gives to the constructor. -/
theorem convertibleSecurity_iff {environ : Env} {raw : Json F}
    {cfg : CasterCfg F} (hload : loadConfig environ raw = .ok cfg) :
    ConvertibleSecurity raw ↔
      ∃ settings, cfg.security = .obj settings ∧
        ConvertibleSettings settings := by
  rcases loadConfig_security hload with ⟨sec, hsec, hsecurity⟩
  rcases map_eq_ok.mp hsec with ⟨value?, hvalue, rfl⟩
  rw [hsecurity]
  have hnone : ConvertibleSettings ([] : PyDict String (Json F)) := by
    constructor <;> simp [UnlessFalse]
  unfold ConvertibleSecurity
  simp only [hvalue, Except.ok.injEq]
  cases value? with
  | none => simpa [Json.orElse, Json.truthy] using hnone
  | some security =>
      cases htruthy : security.truthy with
      | true => simp [Json.orElse, htruthy]
      | false => simpa [Json.orElse, htruthy] using hnone

theorem orElse_orElse (j other : Json F) :
    (j.orElse other).orElse other = j.orElse other := by
  unfold Json.orElse
  cases hj : j.truthy <;> simp [hj]

namespace NtripCaster

theorem init_ok_iff {environ : Env} {cfg : CasterCfg F}
    {settings : PyDict String (Json F)}
    (hsecurity : cfg.security = .obj settings)
    (hvalid : securityErrors cfg.security = []) (cfgPath : Option String)
    (file : Except PyErr (Json F)) :
    (∃ s, init environ cfg cfgPath file = .ok s) ↔
      ConvertibleSettings settings := by
  rw [hsecurity] at hvalid
  rcases securityNets_of_errors hvalid with
    ⟨⟨ipAllow, hallow⟩, ipDeny, hdeny⟩
  unfold init
  dsimp only
  rw [hsecurity]
  constructor
  · rintro ⟨s, hinit⟩
    rcases bind_eq_ok.mp hinit with ⟨_, _, hinit⟩
    rcases bind_eq_ok.mp hinit with ⟨_, _, hinit⟩
    rcases bind_eq_ok.mp hinit with ⟨_, _, hinit⟩
    rcases bind_eq_ok.mp hinit with ⟨_, _, hinit⟩
    rcases bind_eq_ok.mp hinit with ⟨_, hdisabled, hinit⟩
    rcases bind_eq_ok.mp hinit with ⟨_, hadmin, hinit⟩
    rcases bind_eq_ok.mp hinit with ⟨_, hrate, hinit⟩
    rcases bind_eq_ok.mp hinit with ⟨_, hbytes, hinit⟩
    rcases bind_eq_ok.mp hinit with ⟨_, hbackups, hinit⟩
    rcases bind_eq_ok.mp hinit with ⟨_, htimeout, hinit⟩
    rcases bind_eq_ok.mp hinit with ⟨_, hseconds, hinit⟩
    rcases bind_eq_ok.mp hinit with ⟨_, hheaders, hinit⟩
    rcases bind_eq_ok.mp hinit with ⟨_, _, hinit⟩
    rcases bind_eq_ok.mp hinit with ⟨_, haccess, hinit⟩
    rcases bind_eq_ok.mp hinit with ⟨_, hrefresh, hinit⟩
    rcases bind_eq_ok.mp hinit with ⟨_, hmqtt, hinit⟩
    rcases bind_eq_ok.mp hinit with ⟨_, hapi, hinit⟩
    rcases bind_eq_ok.mp hinit with ⟨_, hshadow, hinit⟩
    rcases bind_eq_ok.mp hinit with ⟨_, _, hinit⟩
    rcases bind_eq_ok.mp hinit with ⟨_, hdiag, _⟩
    rw [securityD_obj] at htimeout
    obtain rfl := Except.ok.inj htimeout
    constructor
    case disabledMountpoints =>
      exact securityDisabled_ok_iff.mp ⟨_, hdisabled⟩
    case adminIpAllow => exact securityNets_ok_iff.mp ⟨_, hadmin⟩
    case auditHttpTimeout =>
      exact (unlessFalse_iff (floatLike_float (PyFloat.ofInt 2))).mp
        (Json.pyFloat_ok_iff.mp ⟨_, hseconds⟩)
    case ints =>
      simp only [intSettings, List.forall_mem_cons]
      exact ⟨(securityInt_ok_iff _ _ _).mp ⟨_, hrate⟩,
        (securityInt_ok_iff _ _ _).mp ⟨_, hbytes⟩,
        (securityInt_ok_iff _ _ _).mp ⟨_, hbackups⟩,
        (securityInt_ok_iff _ _ _).mp ⟨_, haccess⟩,
        (securityInt_ok_iff _ _ _).mp ⟨_, hrefresh⟩,
        (securityInt_ok_iff _ _ _).mp ⟨_, hmqtt⟩,
        (securityInt_ok_iff _ _ _).mp ⟨_, hapi⟩,
        (securityInt_ok_iff _ _ _).mp ⟨_, hshadow⟩, List.forall_mem_nil _⟩
    case dicts =>
      simp only [dictSettings, List.forall_mem_cons]
      exact ⟨(securityDict_ok_iff _ _).mp ⟨_, hheaders⟩,
        (securityDict_ok_iff _ _).mp ⟨_, hdiag⟩, List.forall_mem_nil _⟩
  · intro hsettings
    have hint (key : String) (default : ℤ) (hkey : key ∈ intSettings) :
        ∃ n, securityInt (.obj settings) key default = .ok n :=
      (securityInt_ok_iff settings key default).mpr (hsettings.ints key hkey)
    have hdict (key : String) (hkey : key ∈ dictSettings) :
        ∃ d, securityDict (.obj settings) key = .ok d :=
      (securityDict_ok_iff settings key).mpr (hsettings.dicts key hkey)
    rcases securityDisabled_ok_iff.mpr hsettings.disabledMountpoints with
      ⟨disabled, hdisabled⟩
    rcases securityNets_ok_iff.mpr hsettings.adminIpAllow with
      ⟨adminIpAllow, hadmin⟩
    rcases hint "admin_rate_limit_per_min" 60 (by simp [intSettings]) with
      ⟨rateLimit, hrate⟩
    rcases hint "audit_max_bytes" 1048576 (by simp [intSettings]) with
      ⟨maxBytes, hbytes⟩
    rcases hint "audit_backups" 3 (by simp [intSettings]) with
      ⟨backups, hbackups⟩
    rcases Json.pyFloat_ok_iff.mpr
      ((unlessFalse_iff (floatLike_float (PyFloat.ofInt 2))).mpr
        hsettings.auditHttpTimeout) with ⟨seconds, hseconds⟩
    rcases hdict "audit_http_headers" (by simp [dictSettings]) with
      ⟨headers, hheaders⟩
    rcases hint "admin_jwt_exp_s" 3600 (by simp [intSettings]) with
      ⟨accessExpS, haccess⟩
    rcases hint "admin_jwt_refresh_exp_s" (7 * 24 * 3600)
      (by simp [intSettings]) with ⟨refreshExpS, hrefresh⟩
    rcases hint "iot_mqtt_port" 1883 (by simp [intSettings]) with
      ⟨mqttPort, hmqtt⟩
    rcases hint "api_ws_port" 0 (by simp [intSettings]) with ⟨apiPort, hapi⟩
    rcases hint "shadow_ttl_s" 86400 (by simp [intSettings]) with
      ⟨ttl, hshadow⟩
    rcases hdict "diagnostics" (by simp [dictSettings]) with ⟨diag, hdiag⟩
    refine exists_bind_ok hallow ?_
    refine exists_bind_ok hdeny ?_
    refine exists_bind_ok (securityToken_obj environ settings) ?_
    refine exists_bind_ok (securityD_obj settings _ _) ?_
    refine exists_bind_ok hdisabled ?_
    refine exists_bind_ok hadmin ?_
    refine exists_bind_ok hrate ?_
    refine exists_bind_ok hbytes ?_
    refine exists_bind_ok hbackups ?_
    refine exists_bind_ok (securityD_obj settings _ _) ?_
    refine exists_bind_ok hseconds ?_
    refine exists_bind_ok hheaders ?_
    refine exists_bind_ok (securityJwtSecret_obj environ settings) ?_
    refine exists_bind_ok haccess ?_
    refine exists_bind_ok hrefresh ?_
    refine exists_bind_ok hmqtt ?_
    refine exists_bind_ok hapi ?_
    refine exists_bind_ok hshadow ?_
    refine exists_bind_ok (securityD_obj settings _ _) ?_
    refine exists_bind_ok hdiag ?_
    exact ⟨_, rfl⟩

theorem exists_settings_of_init {environ : Env} {cfg : CasterCfg F}
    {cfgPath : Option String} {file : Except PyErr (Json F)}
    {s : NtripCaster F} (hinit : init environ cfg cfgPath file = .ok s) :
    ∃ settings, cfg.security.orElse (.obj []) = .obj settings := by
  have htoken := (init_started hinit).1.adminToken
  rcases map_eq_ok.mp htoken with ⟨token, htoken, _⟩
  rcases map_eq_ok.mp htoken with ⟨value?, hvalue, _⟩
  cases hsecurity : cfg.security.orElse (.obj []) with
  | obj settings => exact ⟨settings, rfl⟩
  | null | bool _ | int _ | float _ | str _ | arr _ =>
      rw [hsecurity] at hvalue
      cases hvalue

/-- A validated document starts exactly if its security section converts. -/
theorem init_of_checkedConfig_iff {environ : Env} {raw : Json F}
    {cfg : CasterCfg F} (hchecked : checkedConfig environ raw = .ok cfg)
    (cfgPath : Option String) (file : Except PyErr (Json F)) :
    (∃ s, init environ cfg cfgPath file = .ok s) ↔
      ConvertibleSecurity raw := by
  rcases securityErrors_of_checkedConfig hchecked with ⟨hload, hvalid⟩
  rw [convertibleSecurity_iff hload]
  constructor
  · rintro ⟨s, hinit⟩
    rcases exists_settings_of_init hinit with ⟨settings, hsettings⟩
    rcases loadConfig_security hload with ⟨sec, _, hsec⟩
    rw [hsec, orElse_orElse, ← hsec] at hsettings
    exact ⟨settings, hsettings,
      (init_ok_iff hsettings hvalid cfgPath file).mp ⟨s, hinit⟩⟩
  · rintro ⟨settings, hsettings, hconvertible⟩
    exact (init_ok_iff hsettings hvalid cfgPath file).mpr hconvertible

theorem init_of_checkedConfig_iff_network :
    ∃ cfg, checkedConfig noEnviron (sourceDocument adminNetwork) = .ok cfg ∧
      ((∃ s, init noEnviron cfg none (.ok (sourceDocument adminNetwork)) =
        .ok s) ↔ ConvertibleSecurity (sourceDocument adminNetwork)) := by
  have hok : (checkedConfig noEnviron (sourceDocument adminNetwork)).isOk =
      true := by
    decide +kernel
  rcases exists_of_isOk hok with ⟨cfg, hcfg⟩
  exact ⟨cfg, hcfg, init_of_checkedConfig_iff hcfg none _⟩

/-- The validation lets a broken entry of the admin list through. -/
def brokenAdminList : Json ℚ :=
  .obj [("admin_ip_allow", .arr [.str "10.0.0"])]

theorem validated_not_started :
    ¬ ∀ (environ : Env) (raw : Json ℚ) (cfg : CasterCfg ℚ)
      (cfgPath : Option String) (file : Except PyErr (Json ℚ)),
      checkedConfig environ raw = .ok cfg →
        ∃ s, init environ cfg cfgPath file = .ok s := by
  intro hstarts
  have hok : (checkedConfig noEnviron (sourceDocument brokenAdminList)).isOk =
      true := by
    decide +kernel
  rcases exists_of_isOk hok with ⟨cfg, hcfg⟩
  rcases hstarts noEnviron _ cfg none (.ok .null) hcfg with ⟨s, hs⟩
  have hraises : (checkedConfig noEnviron (sourceDocument brokenAdminList) >>=
      fun cfg => BabilCors.startSettings noEnviron cfg).toOption = none := by
    decide +kernel
  rw [hcfg] at hraises
  change (BabilCors.startSettings noEnviron cfg).toOption = none at hraises
  rw [(init_started hs).1.start] at hraises
  cases hraises

end NtripCaster

end BabilCors
