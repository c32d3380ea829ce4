import BabilCors.ValidatedStart

/-!
# What an IP list covers

`compile_ip_nets` appends `/32` to an entry without a slash, whatever its
family is.  Of an IPv4 address this is the single host, of an IPv6 address the
block of all addresses with the same first 32 bits.
-/

namespace IpAddress

open Py

/-! ## Prefixes -/

theorem getLsbD_netmask {width prefixlen i : ℕ} (hi : i < width) :
    (netmask width prefixlen).getLsbD i =
      decide (width ≤ prefixlen + i) := by
  have hbit : (netmask width prefixlen).getLsbD i =
      !decide (prefixlen + i < width) := by
    simp [netmask, hi]
  rw [hbit, ← decide_not, decide_eq_decide, not_lt]

/-- Two addresses agree under a netmask exactly if they have the same first
bits. -/
theorem and_netmask_eq_iff {width prefixlen : ℕ} (h : prefixlen ≤ width)
    (x y : BitVec width) :
    x &&& netmask width prefixlen = y &&& netmask width prefixlen ↔
      x >>> (width - prefixlen) = y >>> (width - prefixlen) := by
  constructor
  · intro hand
    apply BitVec.eq_of_getLsbD_eq
    intro i hi
    rw [BitVec.getLsbD_ushiftRight, BitVec.getLsbD_ushiftRight]
    by_cases hin : width - prefixlen + i < width
    · have hbit := congrArg (BitVec.getLsbD · (width - prefixlen + i)) hand
      have hmask : width ≤ prefixlen + (width - prefixlen + i) := by omega
      simpa [BitVec.getLsbD_and, getLsbD_netmask hin, hmask] using hbit
    · rw [BitVec.getLsbD_of_ge _ _ (not_lt.mp hin),
        BitVec.getLsbD_of_ge _ _ (not_lt.mp hin)]
  · intro hshift
    apply BitVec.eq_of_getLsbD_eq
    intro i hi
    rw [BitVec.getLsbD_and, BitVec.getLsbD_and, getLsbD_netmask hi]
    by_cases hin : width ≤ prefixlen + i
    · have hbit := congrArg (BitVec.getLsbD · (i - (width - prefixlen))) hshift
      have hindex : width - prefixlen + (i - (width - prefixlen)) = i := by
        omega
      simp only [BitVec.getLsbD_ushiftRight, hindex] at hbit
      rw [hbit]
    · simp [hin]

/-! ## Entries with and without a slash -/

theorem toList_append_32 {s : String} (hslash : '/' ∉ s.toList) :
    (s ++ "/32").toList.splitOn '/' = [s.toList, "32".toList] := by
  have htext : (s ++ "/32").toList = s.toList ++ '/' :: "32".toList := by
    simp
  rw [htext, List.splitOn_append_cons_self_of_not_mem hslash]
  rfl

/-- The network of the first 32 bits of an address. -/
def first32 : IpAddr → IpNetwork
  | .v4 x => .v4 x (.allOnes 32)
  | .v6 x => .v6 (x &&& netmask 128 32) (netmask 128 32)

theorem ipNetwork?_append_32 {s : String} (hslash : '/' ∉ s.toList) :
    ipNetwork? (s ++ "/32") = (ipAddress? s).map first32 := by
  have hlength32 : prefixString? 32 "32".toList = some 32 := by decide
  have hlength128 : prefixString? 128 "32".toList = some 32 := by decide
  have hmask : netmask 32 32 = BitVec.allOnes 32 := by decide
  unfold ipNetwork? ipAddress?
  rw [toList_append_32 hslash]
  dsimp only
  rw [if_neg hslash, Option.bind_some]
  dsimp only
  rw [hlength32, hlength128]
  cases ipv4? s.toList with
  | some x =>
      simp only [Option.bind_some, Option.orElse_some, Option.map_some, hmask,
        BitVec.and_allOnes]
      rfl
  | none =>
      simp only [Option.bind_none, Option.map_none, Option.orElse_none]
      cases ipv6? s.toList <;> rfl

/-- The addresses of an IPv6 block of 32 bits. -/
def SameFirst32 (ip a : IpAddr) : Prop :=
  ∃ x y, ip = .v6 x ∧ a = .v6 y ∧ x >>> 96 = y >>> 96

theorem SameFirst32.v6_iff {x y : BitVec 128} :
    SameFirst32 (.v6 x) (.v6 y) ↔ x >>> 96 = y >>> 96 := by
  constructor
  · rintro ⟨x', y', hx, hy, hsame⟩
    rw [IpAddr.v6.inj hx, IpAddr.v6.inj hy]
    exact hsame
  · exact fun hsame => ⟨x, y, rfl, rfl, hsame⟩

theorem first32_contains_iff (ip a : IpAddr) :
    (first32 ip).contains a = true ↔ ip = a ∨ SameFirst32 ip a := by
  cases ip with
  | v4 x =>
      have hno : ¬ SameFirst32 (.v4 x) a := by
        rintro ⟨_, _, hx, _⟩
        cases hx
      rw [or_iff_left hno]
      cases a with
      | v4 y =>
          change (y &&& .allOnes 32 == x) = true ↔ _
          rw [BitVec.and_allOnes, beq_iff_eq, IpAddr.v4.injEq, eq_comm]
      | v6 y => exact iff_of_false Bool.false_ne_true nofun
  | v6 x =>
      cases a with
      | v4 y =>
          refine iff_of_false Bool.false_ne_true ?_
          rintro (h | ⟨_, _, _, hy, _⟩)
          · cases h
          · cases hy
      | v6 y =>
          change (y &&& netmask 128 32 == x &&& netmask 128 32) = true ↔ _
          rw [beq_iff_eq, eq_comm, and_netmask_eq_iff (by decide),
            SameFirst32.v6_iff, IpAddr.v6.injEq]
          exact ⟨.inr, fun h => h.elim (fun hxy => hxy ▸ rfl) id⟩

end IpAddress

namespace BabilCors

open Py IpAddress

variable {F : Type} [PyFloat F]

/-- What an entry says: the one address that it denotes, or the block. -/
def EntryMeans (s : String) (a : IpAddr) : Prop :=
  if '/' ∈ s.toList then
    ∃ network, ipNetwork? s = some network ∧ network.contains a = true
  else ipAddress? s = some a

/-- The entries of an IP list, stripped. -/
def ipEntries (values : Json F) : List String :=
  match values.iter with
  | .ok items => items.map fun item => strip item.pyStr
  | .error _ => []

/-- The address is one of the list. -/
def Meant (values : Json F) (a : IpAddr) : Prop :=
  ∃ s ∈ ipEntries values, EntryMeans s a

/-- An IPv6 address without a slash has the same first 32 bits. -/
def Neighbour (s : String) (a : IpAddr) : Prop :=
  '/' ∉ s.toList ∧ ∃ ip, ipAddress? s = some ip ∧ SameFirst32 ip a

/-- The network of an entry has the addresses that the entry means and the
neighbours of an IPv6 address without a slash. -/
theorem compileIpNet_contains {value : Json F} {network? : Option IpNetwork}
    (hcompile : compileIpNet value = .ok network?) (a : IpAddr) :
    (∃ network ∈ network?, network.contains a = true) ↔
      EntryMeans (strip value.pyStr) a ∨ Neighbour (strip value.pyStr) a := by
  unfold compileIpNet at hcompile
  unfold EntryMeans Neighbour
  dsimp only at hcompile
  generalize strip value.pyStr = s at hcompile ⊢
  by_cases hblank : s = ""
  · rw [if_pos hblank] at hcompile
    obtain rfl := Except.ok.inj hcompile
    subst hblank
    have hnone : ipAddress? "" = none := by decide
    simp [hnone]
  rw [if_neg hblank] at hcompile
  by_cases hslash : '/' ∈ s.toList
  · rw [if_pos hslash] at hcompile ⊢
    cases hnetwork : ipNetwork? s with
    | none =>
        rw [hnetwork] at hcompile
        cases hcompile
    | some network =>
        rw [hnetwork] at hcompile
        obtain rfl := Except.ok.inj hcompile
        simp [hslash]
  · rw [if_neg hslash] at hcompile ⊢
    rw [ipNetwork?_append_32 hslash] at hcompile
    cases hip : ipAddress? s with
    | none =>
        rw [hip] at hcompile
        cases hcompile
    | some ip =>
        rw [hip] at hcompile
        obtain rfl := Except.ok.inj hcompile
        simp [hslash, first32_contains_iff]

theorem compileIpNets_contains {values : Json F}
    {networks : List IpNetwork} (hcompile : compileIpNets values = .ok networks)
    (a : IpAddr) :
    (∃ network ∈ networks, network.contains a = true) ↔
      Meant values a ∨ ∃ s ∈ ipEntries values, Neighbour s a := by
  unfold compileIpNets at hcompile
  rcases bind_eq_ok.mp hcompile with ⟨items, hitems, hcompile⟩
  rcases bind_eq_ok.mp hcompile with ⟨compiled, hcompiled, hcompile⟩
  obtain rfl := Except.ok.inj hcompile
  have hentries : ipEntries values =
      items.map fun item => strip item.pyStr := by
    rw [ipEntries, hitems]
  have hcovered {s : String} (hs : s ∈ ipEntries values)
      (hmeans : EntryMeans s a ∨ Neighbour s a) :
      ∃ network ∈ compiled.filterMap id, network.contains a = true := by
    rw [hentries] at hs
    rcases List.mem_map.mp hs with ⟨item, hitem, rfl⟩
    rcases exists_mapM_ok_iff.mp ⟨compiled, hcompiled⟩ item hitem with
      ⟨network?, hnetwork⟩
    rcases (compileIpNet_contains hnetwork a).mpr hmeans with
      ⟨network, hmem, hcontains⟩
    obtain rfl : network? = some network := hmem
    refine ⟨network, List.mem_filterMap.mpr ⟨some network, ?_, rfl⟩,
      hcontains⟩
    exact (mem_of_mapM_ok hcompiled _).mpr ⟨item, hitem, hnetwork⟩
  constructor
  · rintro ⟨network, hmem, hcontains⟩
    rcases List.mem_filterMap.mp hmem with ⟨network?, hmem, hsome⟩
    rcases (mem_of_mapM_ok hcompiled _).mp hmem with ⟨item, hitem, hnetwork⟩
    have hentry : strip item.pyStr ∈ ipEntries values := by
      rw [hentries]
      exact List.mem_map_of_mem hitem
    have hmeant := (compileIpNet_contains hnetwork a).mp
      ⟨network, hsome, hcontains⟩
    generalize strip item.pyStr = s at hentry hmeant
    rcases hmeant with hmeans | hneighbour
    · exact .inl ⟨_, hentry, hmeans⟩
    · exact .inr ⟨_, hentry, hneighbour⟩
  · rintro (⟨s, hs, hmeans⟩ | ⟨s, hs, hneighbour⟩)
    · exact hcovered hs (.inl hmeans)
    · exact hcovered hs (.inr hneighbour)

/-- An address is in the compiled networks just when the list means it,
exactly if no IPv6 address without a slash is its neighbour, or the list means
it anyway. -/
theorem compileIpNets_meaning_iff {values : Json F}
    {networks : List IpNetwork} (hcompile : compileIpNets values = .ok networks)
    (a : IpAddr) :
    ((∃ network ∈ networks, network.contains a = true) ↔ Meant values a) ↔
      ((∃ s ∈ ipEntries values, Neighbour s a) → Meant values a) := by
  rw [compileIpNets_contains hcompile]
  constructor
  · exact fun hiff hneighbour => hiff.mp (.inr hneighbour)
  · exact fun hmeant => ⟨fun h => h.elim id hmeant, .inl⟩

/-- The addresses of a private network and of one IPv6 host. -/
def officeList : Json ℚ :=
  .arr [.str "10.0.0.0/8", .str "2001:db8::1"]

def officeNetworks : List IpNetwork :=
  [.v4 0x0a000000 0xff000000, first32 (.v6 0x20010db8000000000000000000000001)]

theorem compileIpNets_officeList :
    compileIpNets officeList = .ok officeNetworks := by
  decide +kernel

theorem compileIpNets_meaning_office :
    ((∃ network ∈ officeNetworks,
        network.contains (.v4 0x0a010203) = true) ↔
      Meant officeList (.v4 0x0a010203)) := by
  refine (compileIpNets_meaning_iff compileIpNets_officeList _).mpr ?_
  rintro ⟨s, _, _, ip, _, x, y, _, hy, _⟩
  cases hy

/-- The host `2001:db8:ffff::1`. -/
def otherHost : IpAddr :=
  .v6 0x20010db8ffff00000000000000000001

theorem bare_ipv6_covers_neighbour :
    compileIpNets officeList = .ok officeNetworks ∧
      ¬ ((∃ network ∈ officeNetworks, network.contains otherHost = true) ↔
        Meant officeList otherHost) := by
  refine ⟨compileIpNets_officeList, fun hiff => ?_⟩
  have hcovered : ∃ network ∈ officeNetworks,
      network.contains otherHost = true := by
    decide +kernel
  rcases hiff.mp hcovered with ⟨s, hs, hmeans⟩
  have hentries : ipEntries officeList = ["10.0.0.0/8", "2001:db8::1"] := by
    decide +kernel
  rw [hentries] at hs
  rcases List.mem_pair.mp hs with rfl | rfl
  · have hnetwork : ipNetwork? "10.0.0.0/8" =
        some (.v4 0x0a000000 0xff000000) := by
      decide +kernel
    rw [EntryMeans, if_pos (by decide), hnetwork] at hmeans
    rcases hmeans with ⟨network, hnetwork, hcontains⟩
    obtain rfl := Option.some.inj hnetwork
    cases hcontains
  · rw [EntryMeans, if_neg (by decide)] at hmeans
    revert hmeans
    decide +kernel

end BabilCors
