import BabilCors.HttpRequests
import BabilCors.PercentEncoding

/-!
# The target of a request

`split_path_query` cuts the target of a request line into its path and a
dictionary of the query, where the last value of a name wins.  A request that
a client writes, with a percent-encoded query and any headers, reaches the
handlers as it was meant, and a rover's request carries its mountpoint and its
credentials.
-/

namespace BabilCors

open Py IpAddress

/-! ## The functions of the source -/

/-- The checks of a host that `urlsplit` makes; only a target with two slashes
reaches them. -/
class UrlLib where
  netlocError? : List Char → Option PyErr

def isAsciiLetter (c : Char) : Bool :=
  ('a' ≤ c && c ≤ 'z') || ('A' ≤ c && c ≤ 'Z')

def isSchemeChar (c : Char) : Bool :=
  isAsciiLetter c || ('0' ≤ c && c ≤ '9') || c == '+' || c == '-' || c == '.'

def dropScheme (cs : List Char) : List Char :=
  let scheme := cs.takeWhile (· != ':')
  match cs.dropWhile (· != ':') with
  | [] => cs
  | _ :: rest =>
      if scheme.head?.any isAsciiLetter && scheme.all isSchemeChar then rest
      else cs

def netlocEnd (c : Char) : Bool :=
  c == '/' || c == '?' || c == '#'

def splitNetloc : List Char → List Char × List Char
  | '/' :: '/' :: rest =>
      (rest.takeWhile (!netlocEnd ·), rest.dropWhile (!netlocEnd ·))
  | cs => ([], cs)

/-- The path and the query that `urlsplit` gives. -/
def urlsplit [UrlLib] (url : String) : Except PyErr (String × String) :=
  let cs := (url.toList.dropWhile (·.toNat ≤ 0x20)).filter
    (· ∉ ['\t', '\r', '\n'])
  let parts := splitNetloc (dropScheme cs)
  match if parts.1 = [] then none else UrlLib.netlocError? parts.1 with
  | some e => .error e
  | none =>
      let cs := parts.2.takeWhile (· != '#')
      .ok (.ofList (cs.takeWhile (· != '?')),
        .ofList (cs.dropWhile (· != '?')).tail)

/-- The last value of a name wins. -/
def queryDict (pairs : List (String × String)) : PyDict String String :=
  pairs.foldl (fun d pair => d.set pair.1 pair.2) []

def splitPathQuery [UrlLib] (path : String) :
    Except PyErr (String × PyDict String String) :=
  (urlsplit path).map fun parts =>
    (if parts.1 = "" then path else parts.1, queryDict (parseQsl parts.2))

/-- The rover's request in a head. -/
def HttpHead.roverRequest [UrlLib] (head : HttpHead) (addr : String) :
    Except PyErr Caster.RoverRequest :=
  (splitPathQuery head.target).map fun parts => ⟨addr, parts.1, head.headers⟩

/-! ## What a client writes -/

/-- A path that begins with one slash, of characters that stand for
themselves. -/
structure PlainPath (path : String) : Prop where
  slash : ∃ rest, path.toList = '/' :: rest ∧ rest.head? ≠ some '/'
  plain : ∀ c ∈ path.toList, isSpace c = false ∧ c ≠ '?' ∧ c ≠ '#'

def targetOf (path : String) (pairs : List (String × String)) : String :=
  path ++ "?" ++ urlencode pairs

theorem mem_urlencode {pairs : List (String × String)} {c : Char}
    (hc : c ∈ (urlencode pairs).toList) : isSpace c = false ∧ c ≠ '#' := by
  have hquote {s : String} (hx : c ∈ quotePlus s) :
      isSpace c = false ∧ c ≠ '#' := by
    obtain ⟨-, hspace, hother⟩ := mem_quotePlus hx
    refine ⟨hspace, ?_⟩
    rintro rfl
    exact hother (by decide)
  have hpair {pair : String × String} (hx : c ∈ quotePair pair) :
      isSpace c = false ∧ c ≠ '#' := by
    rcases List.mem_append.mp hx with hname | hrest
    · exact hquote hname
    · rcases List.mem_cons.mp hrest with rfl | hvalue
      · decide
      · exact hquote hvalue
  unfold urlencode at hc
  rw [String.toList_ofList] at hc
  induction pairs with
  | nil => cases hc
  | cons pair pairs ih =>
      cases pairs with
      | nil =>
          rw [List.map_singleton, List.intercalate_singleton] at hc
          exact hpair hc
      | cons next pairs =>
          rw [List.map_cons, List.map_cons, List.intercalate_cons_cons,
            List.mem_append, List.mem_append, List.mem_singleton] at hc
          rcases hc with (hfirst | rfl) | hlater
          · exact hpair hfirst
          · decide
          · exact ih hlater

theorem dropScheme_slash (rest : List Char) :
    dropScheme ('/' :: rest) = '/' :: rest := by
  unfold dropScheme
  dsimp only
  cases ('/' :: rest).dropWhile (· != ':') with
  | nil => rfl
  | cons c later =>
      rw [List.takeWhile_cons_of_pos (by decide)]
      rfl

theorem splitNetloc_slash {rest : List Char} (hrest : rest.head? ≠ some '/') :
    splitNetloc ('/' :: rest) = ([], '/' :: rest) := by
  unfold splitNetloc
  split
  · next later heq =>
      obtain rfl := (List.cons.inj heq).2
      exact absurd rfl hrest
  · rfl

/-- A path with nothing or a question mark and plain characters behind it. -/
theorem urlsplit_append [UrlLib] {path : String} (hpath : PlainPath path)
    {tail : String} (hmark : ∀ c ∈ tail.toList.head?, c = '?')
    (htail : ∀ c ∈ tail.toList, isSpace c = false ∧ c ≠ '#') :
    urlsplit (path ++ tail) = .ok (path, .ofList tail.toList.tail) := by
  obtain ⟨rest, hslash, hone⟩ := hpath.slash
  have hlist : (path ++ tail).toList = path.toList ++ tail.toList :=
    String.toList_append
  have hchars : ∀ c ∈ (path ++ tail).toList,
      isSpace c = false ∧ c ≠ '#' := by
    intro c hc
    rw [hlist, List.mem_append] at hc
    rcases hc with hpathc | htailc
    · exact ⟨(hpath.plain c hpathc).1, (hpath.plain c hpathc).2.2⟩
    · exact htail c htailc
  have hkept : ((path ++ tail).toList.dropWhile (·.toNat ≤ 0x20)).filter
      (· ∉ ['\t', '\r', '\n']) = (path ++ tail).toList := by
    have hdrop : (path ++ tail).toList.dropWhile (·.toNat ≤ 0x20) =
        (path ++ tail).toList := by
      rw [hlist, hslash]
      rfl
    rw [hdrop]
    apply List.filter_eq_self.mpr
    intro c hc
    apply decide_eq_true
    intro hmem
    have hblank : ∀ x ∈ ['\t', '\r', '\n'], isSpace x = true :=
      List.all_iff_forall_prop.mp (by decide)
    exact Bool.false_ne_true ((hchars c hc).1.symm.trans (hblank c hmem))
  have hnetloc : splitNetloc (dropScheme (path ++ tail).toList) =
      ([], (path ++ tail).toList) := by
    have hcons : (path ++ tail).toList = '/' :: (rest ++ tail.toList) := by
      rw [hlist, hslash]
      rfl
    have hhead : (rest ++ tail.toList).head? ≠ some '/' := by
      cases rest with
      | nil =>
          intro hfirst
          exact absurd (hmark '/' hfirst) (by decide)
      | cons c rest => exact hone
    rw [hcons, dropScheme_slash, splitNetloc_slash hhead]
  have hfragment : (path ++ tail).toList.takeWhile (· != '#') =
      (path ++ tail).toList := by
    apply List.takeWhile_eq_self_iff.mpr
    intro c hc
    simpa using (hchars c hc).2
  have hpass : ∀ c ∈ path.toList, (c != '?') = true := by
    intro c hc
    simpa using (hpath.plain c hc).2.1
  have hstop : tail.toList.takeWhile (· != '?') = [] ∧
      tail.toList.dropWhile (· != '?') = tail.toList := by
    cases hcs : tail.toList with
    | nil => exact ⟨rfl, rfl⟩
    | cons c cs =>
        obtain rfl := hmark c (by rw [hcs]; rfl)
        exact ⟨rfl, rfl⟩
  unfold urlsplit
  simp only [hkept, hnetloc, if_true]
  rw [hfragment, hlist, List.takeWhile_append_of_pos hpass,
    List.dropWhile_append_of_pos hpass, hstop.1, hstop.2, List.append_nil,
    String.ofList_toList]

theorem PlainPath.ne_empty {path : String} (hpath : PlainPath path) :
    path ≠ "" := by
  rintro rfl
  obtain ⟨rest, hslash, -⟩ := hpath.slash
  cases hslash

theorem splitPathQuery_targetOf [UrlLib] {path : String}
    (hpath : PlainPath path) (pairs : List (String × String)) :
    splitPathQuery (targetOf path pairs) = .ok (path, queryDict pairs) := by
  have htail : ("?" ++ urlencode pairs).toList =
      '?' :: (urlencode pairs).toList := by
    rw [String.toList_append]
    rfl
  have hsplit := urlsplit_append hpath
    (by rw [htail]; rintro c ⟨⟩; rfl)
    (by
      rw [htail]
      exact List.forall_mem_cons.mpr
        ⟨by decide, fun c hc => mem_urlencode hc⟩)
  rw [htail, List.tail_cons, String.ofList_toList, ← String.append_assoc]
    at hsplit
  unfold splitPathQuery targetOf
  rw [hsplit]
  simp only [Except.map, if_neg hpath.ne_empty, parseQsl_urlencode]

theorem splitPathQuery_path [UrlLib] {path : String}
    (hpath : PlainPath path) : splitPathQuery path = .ok (path, []) := by
  have hsplit := @urlsplit_append _ path hpath ""
    (fun c hc => by cases hc) (fun c hc => by cases hc)
  rw [String.append_empty] at hsplit
  unfold splitPathQuery
  rw [hsplit]
  simp only [Except.map, if_neg hpath.ne_empty]
  rfl

/-! ## The request -/

theorem handleConn_http {q : ClientRequest} (h : PlainRequest q)
    {peername : Option (String × ℕ)} {allow deny : List IpNetwork}
    (hpermitted : ipAllowed (clientIpOf (formatAddr peername)) allow deny =
      true) :
    handleConn peername allow deny (some (lineBytes q.requestLine)) =
      .http := by
  obtain ⟨tail, hline⟩ : ∃ tail, lineBytes q.requestLine =
      utf8Encode (q.method ++ " ") ++ tail := by
    refine ⟨utf8Encode (q.target ++ " HTTP/1.1") ++ [13, newline], ?_⟩
    rw [lineBytes, ClientRequest.requestLine, utf8Encode_eq, utf8Encode_eq,
      utf8Encode_eq]
    simp only [String.toList_append, List.flatMap_append, List.append_assoc]
  have hsource : ∀ method ∈ httpMethods,
      (utf8Encode "SOURCE ").isPrefixOf (utf8Encode (method ++ " ") ++ tail) =
        false := by
    intro method hmethod
    rw [utf8Encode_eq, utf8Encode_eq]
    simp only [httpMethods, List.mem_cons, List.not_mem_nil, or_false]
      at hmethod
    rcases hmethod with rfl | rfl | rfl | rfl | rfl | rfl <;> rfl
  have hnamed : ∀ method ∈ httpMethods, method ++ " " ∈
      ["GET ", "POST ", "PATCH ", "DELETE ", "PUT ", "OPTIONS "] := by
    decide +kernel
  have hroute : startsWithAny (lineBytes q.requestLine)
      ["GET ", "POST ", "PATCH ", "DELETE ", "PUT ", "OPTIONS "] = true := by
    unfold startsWithAny
    rw [List.any_eq_true]
    refine ⟨_, hnamed q.method h.method, ?_⟩
    rw [hline, List.isPrefixOf_iff_prefix]
    exact List.prefix_append _ _
  have hother : startsWithAny (lineBytes q.requestLine) ["SOURCE "] =
      false := by
    unfold startsWithAny
    rw [hline, List.any_cons, hsource q.method h.method]
    rfl
  unfold handleConn
  simp [hpermitted, hroute, hother]

/-- A request that a client writes is read as it was meant, whatever stands
behind it: it takes the HTTP route, its method, its path, its query and its
headers are what was written, and the rest is left for the body. -/
theorem request_read [UrlLib] {q : ClientRequest} (h : PlainRequest q)
    {path : String} (hpath : PlainPath path)
    {pairs : List (String × String)} (htarget : q.target = targetOf path pairs)
    {peername : Option (String × ℕ)} {allow deny : List IpNetwork}
    (hpermitted : ipAllowed (clientIpOf (formatAddr peername)) allow deny =
      true) (rest : List UInt8) (closed : Bool) :
    ∃ first r,
      readLine lineLimit ⟨q.bytes ++ rest, closed⟩ = .ok (some (first, r)) ∧
        handleConn peername allow deny (some first) = .http ∧
        readHead first r =
          .ok (some (⟨q.method, q.target, headerDict q.headers⟩,
            ⟨rest, closed⟩)) ∧
        splitPathQuery q.target = .ok (path, queryDict pairs) := by
  obtain ⟨hline, hhead⟩ := readHead_bytes h rest closed
  refine ⟨_, _, hline, handleConn_http h hpermitted, hhead, ?_⟩
  rw [htarget]
  exact splitPathQuery_targetOf hpath pairs

/-- A library that accepts every host. -/
@[reducible] def anyHost : UrlLib where
  netlocError? _ := none

/-- The rovers of a mountpoint with a blank and an ampersand in its name. -/
def listRovers : ClientRequest where
  method := "GET"
  target := targetOf "/admin/rovers" [("mountpoint", "MP 1&2")]
  headers := [("Host", "caster"), ("Accept", "text/html, */*")]

theorem listRovers_plain : PlainRequest listRovers where
  method := by decide
  target := by decide +kernel
  word := List.all_iff_forall_prop.mp (by decide +kernel)
  headers := by
    have hhost : PlainHeader ("Host", "caster") :=
      .of_all (by decide) (by decide) (by decide) (by decide +kernel)
    have haccept : PlainHeader ("Accept", "text/html, */*") :=
      .of_all (by decide) (by decide) (by decide) (by decide +kernel)
    exact List.forall_mem_cons.mpr
      ⟨hhost, List.forall_mem_singleton.mpr haccept⟩
  requestLine := by decide +kernel
  headerLines := by decide +kernel
  total := by decide +kernel

theorem adminRovers_path : PlainPath "/admin/rovers" :=
  ⟨⟨_, rfl, by decide⟩, List.all_iff_forall_prop.mp (by decide)⟩

theorem request_read_listRovers :
    ∃ first r,
      readLine lineLimit ⟨listRovers.bytes ++ [1, 2], true⟩ =
          .ok (some (first, r)) ∧
        handleConn (some ("10.0.0.1", 5000)) [] [] (some first) = .http ∧
        readHead first r = .ok (some (⟨"GET", listRovers.target,
          headerDict listRovers.headers⟩, ⟨[1, 2], true⟩)) ∧
        @splitPathQuery anyHost listRovers.target =
          .ok ("/admin/rovers", [("mountpoint", "MP 1&2")]) :=
  @request_read anyHost listRovers listRovers_plain "/admin/rovers"
    adminRovers_path _ rfl (some ("10.0.0.1", 5000)) [] [] (by decide +kernel)
    [1, 2] true

/-! ## The rover -/

/-- The request of a rover with these credentials. -/
def roverLogin (mountpoint user password : String) : ClientRequest where
  method := "GET"
  target := "/" ++ mountpoint
  headers := [("Authorization", basicHeader user password)]

/-- The path of a rover's request: `_handle_http` answers the others in front
of the rover part. -/
def IsRoverPath (path : String) : Prop :=
  path ∉ Caster.otherPaths ∧ startsWith path "/admin/" = false

/-- A name that stands for itself in a path, and whose path is a rover's. -/
structure PlainName (name : String) : Prop where
  slash : name.toList.head? ≠ some '/'
  plain : ∀ c ∈ name.toList, isSpace c = false ∧ c ≠ '?' ∧ c ≠ '#'
  rover : IsRoverPath ("/" ++ name)

theorem PlainName.path {name : String} (h : PlainName name) :
    PlainPath ("/" ++ name) where
  slash := ⟨name.toList, by simp [String.toList_append], h.slash⟩
  plain c hc := by
    rw [String.toList_append, List.mem_append] at hc
    rcases hc with hslash | hname
    · have hall : ∀ c ∈ "/".toList, isSpace c = false ∧ c ≠ '?' ∧ c ≠ '#' :=
        List.all_iff_forall_prop.mp (by decide)
      exact hall c hslash
    · exact h.plain c hname

/-- The bytes of a rover's request are read as one, with its mountpoint and its
credentials. -/
theorem roverLogin_read [UrlLib] {mountpoint user password : String}
    (hmountpoint : PlainName mountpoint) (huser : user ≠ "")
    (hcolon : ':' ∉ user.toList)
    (hplain : PlainRequest (roverLogin mountpoint user password))
    (addr : String) (rest : List UInt8) (closed : Bool) :
    ∃ first r head req,
      readLine lineLimit ⟨(roverLogin mountpoint user password).bytes ++ rest,
          closed⟩ = .ok (some (first, r)) ∧
        readHead first r = .ok (some (head, ⟨rest, closed⟩)) ∧
        head.roverRequest addr = .ok req ∧ IsRoverPath req.path ∧
        req.mountpoint = mountpoint ∧
        req.credentials = .ok (some (user, password)) := by
  obtain ⟨hline, hhead⟩ := readHead_bytes hplain rest closed
  have hpath := splitPathQuery_path hmountpoint.path
  have hlower : lower "Authorization" = "authorization" := by
    decide +kernel
  have hheaders : headerDict (roverLogin mountpoint user password).headers =
      [("authorization", basicHeader user password)] := by
    change PyDict.set [] (lower "Authorization") _ = _
    rw [hlower]
    rfl
  refine ⟨_, _, _, ⟨addr, "/" ++ mountpoint,
    headerDict (roverLogin mountpoint user password).headers⟩, hline, hhead,
    ?_, hmountpoint.rover, ?_, ?_⟩
  · unfold HttpHead.roverRequest
    change (splitPathQuery ("/" ++ mountpoint)).map _ = _
    rw [hpath]
    rfl
  · change lstripChar '/' ("/" ++ mountpoint) = mountpoint
    have hdrop : ("/" ++ mountpoint).toList.dropWhile (· == '/') =
        mountpoint.toList := by
      rw [String.toList_append]
      change mountpoint.toList.dropWhile (· == '/') = mountpoint.toList
      have hslash := hmountpoint.slash
      cases hlist : mountpoint.toList with
      | nil => rfl
      | cons c cs =>
          rw [hlist] at hslash
          apply List.dropWhile_cons_of_neg
          simpa using hslash
    unfold lstripChar
    rw [hdrop, String.ofList_toList]
  · rw [hheaders]
    exact parseBasicAuth_basicHeader huser hcolon password

theorem roverLogin_plain : PlainRequest (roverLogin "MP1" "u" "p") where
  method := by decide
  target := by decide +kernel
  word := List.all_iff_forall_prop.mp (by decide +kernel)
  headers := by
    have hheader : PlainHeader ("Authorization", basicHeader "u" "p") :=
      .of_all (by decide) (by decide) (by decide +kernel)
        (by decide +kernel)
    exact List.forall_mem_singleton.mpr hheader
  requestLine := by decide +kernel
  headerLines := by decide +kernel
  total := by decide +kernel

theorem roverLogin_read_mp1 :
    ∃ first r head req,
      readLine lineLimit ⟨(roverLogin "MP1" "u" "p").bytes ++ [], false⟩ =
          .ok (some (first, r)) ∧
        readHead first r = .ok (some (head, ⟨[], false⟩)) ∧
        @HttpHead.roverRequest anyHost head "10.0.0.1:5000" = .ok req ∧
        IsRoverPath req.path ∧ req.mountpoint = "MP1" ∧
        req.credentials = .ok (some ("u", "p")) :=
  @roverLogin_read anyHost "MP1" "u" "p"
    ⟨by decide, List.all_iff_forall_prop.mp (by decide),
      by decide, by decide +kernel⟩ (by decide)
    (by decide) roverLogin_plain "10.0.0.1:5000" [] false

end BabilCors
