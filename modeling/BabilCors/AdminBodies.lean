import BabilCors.AdminRequests
import BabilCors.ExactFloat
import BabilCors.JsonRoundTrip
import BabilCors.RequestTarget

/-!
# The bodies of admin requests

Behind the head `_handle_http` reads as many bytes as the Content-Length
announces and takes what `json.loads` makes of them.  The JSON value that a
client writes is the one that the handlers get, and what stands behind the body
is not touched.
-/

namespace BabilCors

open Py

variable {F : Type} [PyFloat F]

/-- `readexactly`; `none` is the `IncompleteReadError`. -/
def StreamReader.readexactly (r : StreamReader) (n : ℕ) :
    Option (List UInt8 × StreamReader) :=
  if r.buffer.length < n then none
  else some (r.buffer.take n, { r with buffer := r.buffer.drop n })

/-- What the announced body loads to, and the stream behind it. -/
def HttpHead.readBody (F : Type) [PyFloat F] (head : HttpHead)
    (r : StreamReader) : Option (Json F) × StreamReader :=
  let announced := (head.headers.get? "content-length").getD ""
  let ctype := lower ((head.headers.get? "content-type").getD "")
  if (head.method = "POST" ∨ head.method = "PATCH") ∧ announced ≠ "" ∧
      startsWith ctype "application/json" then
    match int? announced with
    | none => (none, r)
    | some n =>
        if 0 < n then
          match r.readexactly n.toNat with
          | none => (none, { r with buffer := [] })
          | some (data, r) => (Json.loads? (safeDecode data), r)
        else (none, r)
  else (none, r)

/-- The admin request that the bytes of a connection carry. -/
def readAdmin (F : Type) [PyFloat F] [UrlLib] (first : List UInt8)
    (r : StreamReader) (addr clientIp traceId : String) :
    Except PyErr (Option (AdminRequest F × StreamReader)) :=
  match readHead first r with
  | .error e => .error e
  | .ok none => .ok none
  | .ok (some (head, r)) =>
      (splitPathQuery head.target).map fun parts =>
        let body := head.readBody F r
        some (⟨head.method, parts.1, head.target.toList.contains '?',
          head.headers, body.1, addr, clientIp, traceId⟩, body.2)

/-- A request of a client that announces its body as JSON. -/
structure JsonRequest (q : ClientRequest) (body : String) : Prop where
  plain : PlainRequest q
  method : q.method = "POST" ∨ q.method = "PATCH"
  headers : ∃ more length,
    q.headers = more ++ [("Content-Type", "application/json"),
      ("Content-Length", length)] ∧
    strInt? ((utf8Encode body).length : ℤ) = some length

/-! ## What is read -/

omit [PyFloat F] in
theorem StreamReader.readexactly_append (data rest : List UInt8)
    (closed : Bool) :
    readexactly ⟨data ++ rest, closed⟩ data.length =
      some (data, ⟨rest, closed⟩) := by
  unfold readexactly
  rw [if_neg (by simp)]
  simp

theorem utf8Encode_ne_nil {s : String} (hs : s ≠ "") :
    utf8Encode s ≠ [] := by
  intro hempty
  apply hs
  rw [← safeDecode_utf8Encode s, hempty]
  rfl

theorem dumps?_ne_empty {value : Json F} (hvalue : value.Proper)
    {indent : Option ℕ} {body : String}
    (hbody : Json.dumps? indent value = some body) : body ≠ "" := by
  unfold Json.dumps? at hbody
  split_ifs at hbody
  obtain rfl := Option.some.inj hbody
  obtain ⟨c, rest, htext, -⟩ := hvalue.starts indent 0
  rw [htext]
  exact fun hempty => by simpa using congrArg String.toList hempty

theorem headerDict_json (more : List (String × String)) (length : String) :
    (headerDict (more ++ [("Content-Type", "application/json"),
        ("Content-Length", length)])).get? "content-length" = some length ∧
      (headerDict (more ++ [("Content-Type", "application/json"),
        ("Content-Length", length)])).get? "content-type" =
          some "application/json" := by
  have hlength : lower "Content-Length" = "content-length" := by
    decide +kernel
  have htype : lower "Content-Type" = "content-type" := by
    decide +kernel
  unfold headerDict
  rw [List.foldl_append, List.foldl_cons, List.foldl_cons, List.foldl_nil,
    hlength, htype]
  refine ⟨PyDict.get?_set_self _ _ _, ?_⟩
  rw [PyDict.get?_set_of_ne _ _ (by decide), PyDict.get?_set_self]

/-- The head announces JSON of the length of the body. -/
structure Announces (headers : PyDict String String) (body : String)
    (digits : String) : Prop where
  length : headers.get? "content-length" = some digits
  type : headers.get? "content-type" = some "application/json"
  nonempty : digits ≠ ""
  value : int? digits = some ((utf8Encode body).length : ℤ)
  positive : (0 : ℤ) < (utf8Encode body).length

theorem JsonRequest.announces {q : ClientRequest} {body : String}
    (h : JsonRequest q body) (hbody : body ≠ "") :
    ∃ digits, Announces (headerDict q.headers) body digits := by
  obtain ⟨more, length, hheaders, htext⟩ := h.headers
  obtain ⟨hlength, htype⟩ := headerDict_json more length
  have hvalue := int?_strInt? htext
  have hpos := List.length_pos_of_ne_nil (utf8Encode_ne_nil hbody)
  refine ⟨length, hheaders ▸ hlength, hheaders ▸ htype, ?_, hvalue,
    by exact_mod_cast hpos⟩
  rintro rfl
  have hnone : int? "" = none := by
    decide +kernel
  rw [hnone] at hvalue
  cases hvalue

theorem startsWith_json :
    startsWith (lower "application/json") "application/json" = true := by
  decide +kernel

/-- The body is read in full and nothing else. -/
theorem readBody_json {q : ClientRequest} {body : String}
    (h : JsonRequest q body) (hbody : body ≠ "") (rest : List UInt8)
    (closed : Bool) :
    HttpHead.readBody F ⟨q.method, q.target, headerDict q.headers⟩
        ⟨utf8Encode body ++ rest, closed⟩ =
      (Json.loads? body, ⟨rest, closed⟩) := by
  obtain ⟨digits, ha⟩ := h.announces hbody
  unfold HttpHead.readBody
  dsimp only
  rw [ha.length, ha.type]
  dsimp only [Option.getD_some]
  rw [if_pos ⟨h.method, ha.nonempty, startsWith_json⟩, ha.value]
  dsimp only
  rw [if_pos ha.positive, Int.toNat_natCast,
    StreamReader.readexactly_append]
  dsimp only
  rw [safeDecode_utf8Encode]

/-- Whatever value a client sends in the body of a request, the request that
reaches the handlers has its method, its path, its headers and this value, and
the bytes behind the body are left. -/
theorem jsonRequest_read [UrlLib] {q : ClientRequest} {body : String}
    (h : JsonRequest q body) {path : String} (hpath : PlainPath path)
    (htarget : q.target = path) {value : Json F} (hvalue : value.Proper)
    {indent : Option ℕ} (hbody : Json.dumps? indent value = some body)
    (addr clientIp traceId : String) (rest : List UInt8) (closed : Bool) :
    ∃ first r req,
      readLine lineLimit ⟨q.bytes ++ (utf8Encode body ++ rest), closed⟩ =
          .ok (some (first, r)) ∧
        readAdmin F first r addr clientIp traceId =
          .ok (some (req, ⟨rest, closed⟩)) ∧
        req.method = q.method ∧ req.path = path ∧ req.hasQuery = false ∧
        req.headers = headerDict q.headers ∧ req.bodyJson = value := by
  obtain ⟨hline, hhead⟩ := readHead_bytes h.plain
    (utf8Encode body ++ rest) closed
  have hread := @readBody_json F _ q body h
    (dumps?_ne_empty hvalue hbody) rest closed
  rw [Json.loads?_dumps? hvalue hbody] at hread
  have hquery : path.toList.contains '?' = false := by
    rw [List.contains_eq_mem, decide_eq_false_iff_not]
    exact fun hmem => (hpath.plain '?' hmem).2.1 rfl
  refine ⟨_, _, ⟨q.method, path, false, headerDict q.headers, some value,
    addr, clientIp, traceId⟩, hline, ?_, rfl, rfl, rfl, rfl, ?_⟩
  · unfold readAdmin
    rw [hhead]
    dsimp only
    rw [hread, htarget, splitPathQuery_path hpath, hquery]
    rfl
  · obtain ⟨digits, ha⟩ := h.announces (dumps?_ne_empty hvalue hbody)
    unfold AdminRequest.bodyJson
    dsimp only
    rw [ha.length, ha.type]
    dsimp only [Option.getD_some]
    rw [if_pos ⟨h.method, ha.nonempty, startsWith_json⟩, ha.value]
    dsimp only
    rw [if_pos ha.positive]

/-! ## A new mountpoint -/

def newMountpointBody : Json ℚ :=
  .obj [("name", .str "MP1")]

def postMountpoint : ClientRequest where
  method := "POST"
  target := "/admin/mountpoints"
  headers := [("Content-Type", "application/json"), ("Content-Length", "15")]

theorem newMountpointBody_proper : newMountpointBody.Proper := by
  apply Json.Proper.obj
  · decide
  · exact List.forall_mem_singleton.mpr (.str _)

theorem postMountpoint_json :
    JsonRequest postMountpoint "\x7b\"name\": \"MP1\"\x7d" where
  plain :=
    { method := by decide
      target := by decide +kernel
      word := List.all_iff_forall_prop.mp (by decide +kernel)
      headers := by
        have htype : PlainHeader ("Content-Type", "application/json") :=
          .of_all (by decide) (by decide) (by decide) (by decide +kernel)
        have hlength : PlainHeader ("Content-Length", "15") :=
          .of_all (by decide) (by decide) (by decide) (by decide +kernel)
        exact List.forall_mem_cons.mpr
          ⟨htype, List.forall_mem_singleton.mpr hlength⟩
      requestLine := by decide +kernel
      headerLines := by decide +kernel
      total := by decide +kernel }
  method := .inl rfl
  headers := ⟨[], "15", rfl, by decide +kernel⟩

theorem jsonRequest_read_newMountpoint :
    ∃ first r req,
      readLine lineLimit ⟨postMountpoint.bytes ++
          (utf8Encode "\x7b\"name\": \"MP1\"\x7d" ++ [1]), false⟩ =
          .ok (some (first, r)) ∧
        @readAdmin ℚ _ anyHost first r "10.0.0.1:5000" "10.0.0.1" "t" =
          .ok (some (req, ⟨[1], false⟩)) ∧
        req.method = "POST" ∧ req.path = "/admin/mountpoints" ∧
        req.hasQuery = false ∧
        req.headers = headerDict postMountpoint.headers ∧
        req.bodyJson = newMountpointBody :=
  @jsonRequest_read ℚ _ anyHost postMountpoint _ postMountpoint_json
    "/admin/mountpoints"
    ⟨⟨_, rfl, by decide⟩, List.all_iff_forall_prop.mp (by decide)⟩ rfl
    newMountpointBody newMountpointBody_proper none (by decide +kernel)
    "10.0.0.1:5000" "10.0.0.1" "t" [1] false

end BabilCors
