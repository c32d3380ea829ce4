import BabilCors.IpAddress

/-!
# The IP filter of a connection

`_handle_conn` formats the peer as `host:port`, takes what stands before the
first colon as the client's IP and asks `ip_allowed`.  An IPv4 host has no
colon, so the text that is parsed again is the host.  Of an IPv6 host only the
first group is left, which is no address of either family, and the decision
falls back to whether the allow list is empty.
-/

namespace BabilCors

open Py IpAddress

/-! ## The functions of the source -/

/-- `format_addr`: a peer name is a host with a port, or something else that
the transport reports. -/
def formatAddr : Option (String × ℕ) → String
  | some (host, port) => host ++ ":" ++ toString port
  | none => "unknown"

def ipAllowed (clientIp : String) (allow deny : List IpNetwork) : Bool :=
  match ipAddress? clientIp with
  | none => allow.length == 0
  | some ip =>
      if deny.any (·.contains ip) then false
      else if allow.isEmpty then true
      else allow.any (·.contains ip)

def clientIpOf (addr : String) : String :=
  before ':' addr

inductive ConnRoute where
  | ipForbidden
  | noLine
  | source
  | http
  | unknown
  deriving DecidableEq, Repr

def startsWithAny (line : List UInt8) (prefixes : List String) : Bool :=
  prefixes.any fun p => (utf8Encode p).isPrefixOf line

/-- `_handle_conn`: the IP filter, then the dispatch on the first line. -/
def handleConn (peername : Option (String × ℕ))
    (ipAllow ipDeny : List IpNetwork) (first : Option (List UInt8)) :
    ConnRoute :=
  let addr := formatAddr peername
  let clientIp := clientIpOf addr
  if !ipAllowed clientIp ipAllow ipDeny then .ipForbidden
  else
    match first with
    | none => .noLine
    | some first =>
        if startsWithAny first ["SOURCE "] then .source
        else if startsWithAny first
            ["GET ", "POST ", "PATCH ", "DELETE ", "PUT ", "OPTIONS "] then
          .http
        else .unknown

/-! ## The decision -/

/-- The rule an operator reads off the two lists. -/
def Permitted (ip : IpAddr) (allow deny : List IpNetwork) : Prop :=
  (∀ n ∈ deny, n.contains ip = false) ∧
    (allow = [] ∨ ∃ n ∈ allow, n.contains ip = true)

/-- When the decision on a peer is the rule's: always for IPv4; for IPv6 with
no allow list when no deny network contains the address, and with one when the
address is refused anyway. -/
def FilterMeets (ip : IpAddr) (allow deny : List IpNetwork) : Prop :=
  match ip with
  | .v4 _ => True
  | .v6 _ =>
      (allow = [] ∧ ∀ n ∈ deny, n.contains ip = false) ∨
        (allow ≠ [] ∧
          ((∃ n ∈ deny, n.contains ip = true) ∨
            ∀ n ∈ allow, n.contains ip = false))

theorem ipAllowed_of_parsed {clientIp : String} {ip : IpAddr}
    (hip : ipAddress? clientIp = some ip) (allow deny : List IpNetwork) :
    ipAllowed clientIp allow deny = true ↔ Permitted ip allow deny := by
  unfold ipAllowed Permitted
  rw [hip]
  dsimp only
  by_cases hdeny : deny.any (·.contains ip) = true
  · obtain ⟨n, hn, hcontains⟩ := List.any_eq_true.mp hdeny
    rw [if_pos hdeny]
    simp only [Bool.false_eq_true, false_iff, not_and]
    intro hnone
    exact absurd hcontains (by simp [hnone n hn])
  · have hnone : ∀ n ∈ deny, n.contains ip = false := by
      simpa using hdeny
    rw [if_neg hdeny]
    cases allow with
    | nil => simpa using hnone
    | cons first rest => simpa using fun _ => hnone

theorem ipAllowed_of_unparsed {clientIp : String}
    (hip : ipAddress? clientIp = none) (allow deny : List IpNetwork) :
    ipAllowed clientIp allow deny = true ↔ allow = [] := by
  unfold ipAllowed
  rw [hip]
  simp

theorem clientIpOf_formatAddr (host : String) (port : ℕ) :
    clientIpOf (formatAddr (some (host, port))) = before ':' host := by
  have htext : (host ++ ":" ++ toString port).toList =
      host.toList ++ ':' :: (toString port).toList := by
    simp [String.toList_append]
  simp only [clientIpOf, formatAddr, before]
  rw [htext, takeWhile_ne_append_cons]

theorem before_colon_of_v4 {host : String} {a : BitVec 32}
    (hip : ipv4? host.toList = some a) : before ':' host = host := by
  have hcolon := colon_not_mem_of_ipv4? hip
  have hall : host.toList.takeWhile (· != ':') = host.toList := by
    rw [List.takeWhile_eq_self_iff]
    intro c hc
    simpa using fun h : c = ':' => hcolon (h ▸ hc)
  simp [before, hall]

theorem ipAddress?_before_colon_of_v6 {host : String} {a : BitVec 128}
    (hip : ipv6? host.toList = some a) :
    ipAddress? (before ':' host) = none := by
  obtain ⟨address, hscope, hvalue⟩ := Option.bind_eq_some_iff.mp hip
  obtain ⟨n, hint, _⟩ := Option.map_eq_some_iff.mp hvalue
  have haddress := splitScope?_eq hscope
  have hcolon : ':' ∈ address := by
    by_contra hnone
    rw [ipv6Int?_eq_none_of_no_colon hnone] at hint
    cases hint
  -- the scope stands behind the first colon, so the prefix is the address's
  obtain ⟨rest, hhost⟩ : ∃ rest, host.toList = address ++ rest :=
    ⟨host.toList.dropWhile (· != '%'), by
      rw [haddress, List.takeWhile_append_dropWhile]⟩
  have hbefore : host.toList.takeWhile (· != ':') =
      address.takeWhile (· != ':') := by
    obtain ⟨left, right, rfl⟩ := List.append_of_mem hcolon
    rw [hhost, List.append_assoc, List.cons_append,
      takeWhile_ne_append_cons, takeWhile_ne_append_cons]
  have hdot := dot_not_mem_before_colon hint
  have hcolon' : ':' ∉ address.takeWhile (· != ':') := fun hmem => by
    simpa using List.mem_takeWhile_imp hmem
  unfold ipAddress? before
  simp [hbefore, ipv4?_eq_none_of_no_dot hdot,
    ipv6?_eq_none_of_no_colon hcolon']

theorem handleConn_ne_ipForbidden (peername : Option (String × ℕ))
    (allow deny : List IpNetwork) (first : Option (List UInt8)) :
    handleConn peername allow deny first ≠ .ipForbidden ↔
      ipAllowed (clientIpOf (formatAddr peername)) allow deny = true := by
  unfold handleConn
  dsimp only
  cases hallowed : ipAllowed (clientIpOf (formatAddr peername)) allow deny with
  | false => simp
  | true =>
      simp only [Bool.not_true, Bool.false_eq_true, if_false, iff_true]
      cases first with
      | none => simp
      | some first =>
          dsimp only
          split_ifs <;> simp

/-- The connection of a peer is served exactly when the two lists permit its
address, if and only if the address is IPv4 or the lists are in one of the two
shapes of `FilterMeets`. -/
theorem handleConn_serves_iff (host : String) (port : ℕ) (ip : IpAddr)
    (allow deny : List IpNetwork) (first : Option (List UInt8))
    (hip : ipAddress? host = some ip) :
    (handleConn (some (host, port)) allow deny first ≠ .ipForbidden ↔
        Permitted ip allow deny) ↔
      FilterMeets ip allow deny := by
  rw [handleConn_ne_ipForbidden, clientIpOf_formatAddr]
  rcases ipAddress?_cases hip with ⟨a, rfl, hv4⟩ | ⟨a, rfl, hv6⟩
  · rw [before_colon_of_v4 hv4, ipAllowed_of_parsed hip]
    simp [FilterMeets]
  · rw [ipAllowed_of_unparsed (ipAddress?_before_colon_of_v6 hv6)]
    unfold Permitted FilterMeets
    dsimp only
    by_cases hallow : allow = []
    · simp [hallow]
    · simp only [hallow, false_or, false_and, false_iff, not_and, not_exists,
        ne_eq, not_false_eq_true, true_and]
      constructor
      · intro hrefused
        by_cases hdeny : ∃ n ∈ deny, n.contains (.v6 a) = true
        · exact .inl hdeny
        · refine .inr fun n hn => ?_
          have hnone : ∀ n ∈ deny, n.contains (.v6 a) = false := by
            simpa using hdeny
          simpa using hrefused hnone n hn
      · rintro (⟨n, hn, hcontains⟩ | hnone) hdeny m hm
        · simp [hdeny n hn] at hcontains
        · simp [hnone m hm]

theorem handleConn_serves_iff_loopback :
    (handleConn (some ("127.0.0.1", 50000)) []
        [.v4 0x7f000000#32 0xff000000#32] none ≠ .ipForbidden ↔
      Permitted (.v4 0x7f000001#32) [] [.v4 0x7f000000#32 0xff000000#32]) ↔
      FilterMeets (.v4 0x7f000001#32) []
        [.v4 0x7f000000#32 0xff000000#32] :=
  handleConn_serves_iff "127.0.0.1" 50000 (.v4 0x7f000001#32) []
    [.v4 0x7f000000#32 0xff000000#32] none (by decide +kernel)

/-- A denied IPv6 peer gets past the filter: with `2001:db8::/32` as the only
deny network and no allow list, `2001:db8::1` is served. -/
theorem handleConn_serves_denied_v6 :
    ipAddress? "2001:db8::1" =
        some (.v6 0x20010db8000000000000000000000001#128) ∧
      ipNetwork? "2001:db8::/32" =
        some (.v6 0x20010db8000000000000000000000000#128
          0xffffffff000000000000000000000000#128) ∧
      handleConn (some ("2001:db8::1", 50000)) []
          [.v6 0x20010db8000000000000000000000000#128
            0xffffffff000000000000000000000000#128]
          (some (utf8Encode "GET / HTTP/1.1")) = .http ∧
      ¬ Permitted (.v6 0x20010db8000000000000000000000001#128) []
          [.v6 0x20010db8000000000000000000000000#128
            0xffffffff000000000000000000000000#128] := by
  refine ⟨by decide +kernel, by decide +kernel, by decide +kernel, ?_⟩
  rintro ⟨hdeny, _⟩
  exact absurd (hdeny _ List.mem_cons_self) (by decide +kernel)

end BabilCors
