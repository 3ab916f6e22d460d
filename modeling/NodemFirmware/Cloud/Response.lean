import NodemFirmware.Lib.Split
import NodemFirmware.Cloud.Register

/-! # What a registration reports

`register_http_request` reads a response into a buffer, takes it apart and copies its fields.

* `delivered` is what its `recv`s return together, `HttpCalls.text` the text it reads of that, and
  `serverReply` what the whole response says.
* `registerResponse_ok_iff`: of the text read it finds the server's fields exactly when the text
  gets as far as the name, and then the name as far as the text goes.
* `register_exact_iff`: success means the server's fields, and a response that fits is taken,
  exactly when no call falls short without an `errno` and the text covers the name. -/

namespace NodemFirmware.Cloud

open CText Split

/-! ### What the server says -/

/-- The fields of a response, and where its name starts. -/
structure ServerReply where
  id : CStr
  secret : CStr
  name : CStr
  nameStart : ℕ
deriving DecidableEq, Repr

/-- A byte of a name: the name ends at a comma or at the end of the line. -/
def nameByte (c : UInt8) : Bool := c ≠ (',' : UInt8) && c ≠ 13 && c ≠ 10

/-- The id and the secret of the "#id," line in the body, and what comes after. -/
def replyFields (response : CStr) : Option ((CStr × CStr) × CStr) := do
  let (_, body) ← splitOnce [13, 10, 13, 10] response
  let (_, line) ← splitOnce (cs "#id,") body
  let (id, rest) ← splitOnce [(',' : UInt8)] line
  let (secret, rest) ← splitOnce [(',' : UInt8)] rest
  some ((id, secret), rest)

/-- What a whole response says, if its status is 2xx. -/
def serverReply (response : List UInt8) : Option ServerReply := do
  let status ← scanStatus response
  let ((id, secret), rest) ← replyFields response
  if 200 ≤ status ∧ status < 300 then
    some ⟨id, secret, rest.takeWhile nameByte, response.length - rest.length⟩
  else none

/-- Each field fits its output buffer. -/
def ServerReply.Fits (r : ServerReply) : Prop :=
  r.id.length < regIdLen ∧ r.secret.length < regSecretLen ∧ r.name.length < regVerifiedNameLen

instance (r : ServerReply) : Decidable r.Fits := inferInstanceAs (Decidable (_ ∧ _))

/-! ### What is read of it -/

/-- The bytes `recv` returns before the connection is closed or a `recv` fails. -/
def delivered : List (Option (List UInt8)) → List UInt8
  | [] => []
  | none :: _ => []
  | some [] :: _ => []
  | some bytes :: rest => bytes ++ delivered rest

/-- A `recv` fails before the connection is closed. -/
def recvFails : List (Option (List UInt8)) → Bool
  | [] => false
  | none :: _ => true
  | some [] :: _ => false
  | some _ :: rest => recvFails rest

/-- The request fits its buffers. -/
def RequestFits (host code imei name : CStr) : Prop :=
  (requestBody code imei name).length < requestBodyLen ∧
    (requestHead host (requestBody code imei name).length).length < requestHeadLen

/-- Both `send`s were complete. -/
def HttpCalls.Sent (calls : HttpCalls) (host code imei name : CStr) : Prop :=
  calls.sentHead = (requestHead host (requestBody code imei name).length).length ∧
    calls.sentBody = (requestBody code imei name).length

/-- The response was received until the connection was closed, or the buffer was full. -/
def HttpCalls.Received (calls : HttpCalls) : Prop :=
  regRespBufSize - 1 ≤ (delivered calls.received).length ∨ recvFails calls.received = false

/-- The text in the buffer. -/
def HttpCalls.text (calls : HttpCalls) : CStr :=
  ofBytes ((delivered calls.received).take (regRespBufSize - 1))

/-- What a registration is to report, of the server's response: what was delivered of it, and
`unread`, what was not.  Whatever the output arrays held, 0 means that the request went out and that
they hold the server's fields; and for a response that was received as a whole, holds no NUL, and
fits the buffers it is 0. -/
structure ReportsExactly (host code imei name : CStr) (calls : HttpCalls) (unread : List UInt8) :
    Prop where
  success : ∀ stack : Reply,
    (registerHttpRequest host code imei name { calls with stack := stack }).1 = 0 →
      calls.Sent host code imei name ∧
        ∃ reply, serverReply (delivered calls.received ++ unread) = some reply ∧
          (registerHttpRequest host code imei name { calls with stack := stack }).2.id = reply.id ∧
          (registerHttpRequest host code imei name { calls with stack := stack }).2.secret =
            reply.secret ∧
          (registerHttpRequest host code imei name { calls with stack := stack }).2.verifiedName =
            reply.name
  taken : RequestFits host code imei name → calls.Sent host code imei name → calls.Received →
    unread = [] → (0 : UInt8) ∉ delivered calls.received →
    (delivered calls.received).length ≤ regRespBufSize - 1 →
    ∀ reply, serverReply (delivered calls.received) = some reply → reply.Fits →
      (registerHttpRequest host code imei name calls).1 = 0

/-- No call falls short without an `errno`; and if the text gets as far as the name of the
response, then to the end of it, and its fields fit. -/
structure Covers (host code imei name : CStr) (calls : HttpCalls) (unread : List UInt8) : Prop where
  errno : RequestFits host code imei name → calls.errno = 0 →
    calls.Sent host code imei name ∧ calls.Received
  reply : RequestFits host code imei name → calls.Sent host code imei name → calls.Received →
    ∀ reply, serverReply (delivered calls.received ++ unread) = some reply →
      reply.nameStart ≤ calls.text.length →
        reply.nameStart + reply.name.length ≤ calls.text.length ∧ reply.Fits

/-! ### Receiving -/

/-- A chunk is cut at the end of the buffer. -/
theorem take_chunk {cap : ℕ} {resp : List UInt8} (hresp : resp.length ≤ cap)
    (bytes rest : List UInt8) :
    (resp ++ bytes.take (cap - resp.length)).length ≤ cap ∧
      ((resp ++ bytes.take (cap - resp.length) ++ rest).take cap =
        (resp ++ (bytes ++ rest)).take cap) ∧
      (cap ≤ (resp ++ bytes.take (cap - resp.length) ++ rest).length ↔
        cap ≤ (resp ++ (bytes ++ rest)).length) := by
  simp only [List.length_append, List.length_take]
  rcases Nat.le_total bytes.length (cap - resp.length) with hle | hle
  · rw [List.take_of_length_le hle, List.append_assoc]
    exact ⟨by omega, rfl, by omega⟩
  · refine ⟨by omega, ?_, by omega⟩
    have hlength : (resp ++ bytes.take (cap - resp.length)).length = cap := by
      rw [List.length_append, List.length_take]
      omega
    rw [List.take_left' hlength, List.take_append, List.take_of_length_le hresp,
      List.take_append_of_le_length hle]

/-- **The receive loop**: what is delivered, up to the end of the buffer. -/
theorem recvResponse_eq (l : List (Option (List UInt8))) {resp : List UInt8}
    (hresp : resp.length ≤ regRespBufSize - 1) :
    recvResponse l resp =
      if regRespBufSize - 1 ≤ (resp ++ delivered l).length ∨ recvFails l = false then
        some ((resp ++ delivered l).take (regRespBufSize - 1))
      else none := by
  induction l generalizing resp with
  | nil =>
      rw [if_pos (.inr rfl), recvResponse, delivered, List.append_nil, List.take_of_length_le hresp]
  | cons n rest ih =>
      unfold recvResponse
      by_cases hfull : regRespBufSize - 1 ≤ resp.length
      · have hmore : regRespBufSize - 1 ≤ (resp ++ delivered (n :: rest)).length :=
          hfull.trans (List.length_append ▸ Nat.le_add_right _ _)
        rw [if_pos hfull, if_pos (.inl hmore), List.take_append_of_le_length hfull,
          List.take_of_length_le hresp]
      · rw [if_neg hfull]
        match n with
        | none =>
            rw [delivered, List.append_nil, if_neg]
            rintro (hmore | hclosed)
            · exact hfull hmore
            · cases hclosed
        | some [] =>
            rw [if_pos (.inr rfl), delivered, List.append_nil, List.take_of_length_le hresp]
        | some (b :: bytes) =>
            obtain ⟨hchunk, htake, hmore⟩ := take_chunk hresp (b :: bytes) (delivered rest)
            simp only [ih hchunk, htake, hmore]
            rfl

theorem recvResponse_received {calls : HttpCalls} (h : calls.Received) :
    recvResponse calls.received [] =
      some ((delivered calls.received).take (regRespBufSize - 1)) := by
  rw [recvResponse_eq _ (Nat.zero_le _)]
  exact if_pos h

theorem recvResponse_not_received {calls : HttpCalls} (h : ¬ calls.Received) :
    recvResponse calls.received [] = none := by
  rw [recvResponse_eq _ (Nat.zero_le _)]
  exact if_neg h

/-! ### The exchange -/

variable {host code imei name : CStr} {calls : HttpCalls}

theorem registerExchange_unfit (h : ¬ RequestFits host code imei name) :
    registerExchange host code imei name calls = .error (-Errno.inval) := by
  unfold registerExchange
  refine if_pos ?_
  by_contra hfits
  rw [not_or, Nat.not_le, Nat.not_le] at hfits
  exact h hfits

/-- A call that falls short ends the exchange with what `errno` is. -/
theorem registerExchange_short (hfits : RequestFits host code imei name)
    (h : ¬ (calls.Sent host code imei name ∧ calls.Received)) :
    registerExchange host code imei name calls = .error (-calls.errno) := by
  unfold registerExchange
  simp only
  rw [if_neg (by rw [not_or, Nat.not_le, Nat.not_le]; exact hfits)]
  by_cases hsent : calls.Sent host code imei name
  · have hcounts := hsent
    unfold HttpCalls.Sent at hcounts
    rw [if_neg (by rw [not_or, not_not, not_not]; exact hcounts),
      recvResponse_not_received fun hr => h ⟨hsent, hr⟩]
  · refine if_pos ?_
    by_contra hcounts
    rw [not_or, not_not, not_not] at hcounts
    exact hsent hcounts

theorem registerExchange_received (hfits : RequestFits host code imei name)
    (hsent : calls.Sent host code imei name) (h : calls.Received) :
    registerExchange host code imei name calls =
      registerResponse ((delivered calls.received).take (regRespBufSize - 1)) := by
  unfold registerExchange
  simp only
  unfold HttpCalls.Sent at hsent
  rw [if_neg (by rw [not_or, Nat.not_le, Nat.not_le]; exact hfits),
    if_neg (by rw [not_or, not_not, not_not]; exact hsent), recvResponse_received h]

/-! ### Splitting a response -/

theorem strstr_eq (needle s : CStr) :
    strstr needle s = (splitOnce needle s).map fun p => needle ++ p.2 := by
  induction s with
  | nil =>
      unfold strstr splitOnce
      split_ifs with hneedle
      · rw [hneedle]
        rfl
      · rfl
  | cons c s ih =>
      unfold strstr
      by_cases hstarts : needle <+: c :: s
      · obtain ⟨u, hu⟩ := hstarts
        rw [if_pos ⟨u, hu⟩, splitOnce_of_isPrefix ⟨u, hu⟩, ← hu, List.drop_left]
        rfl
      · rw [if_neg hstarts, splitOnce, if_neg hstarts, ih, Option.map_map]
        rfl

theorem cut_eq (sep : UInt8) (s : CStr) :
    cut sep s = match splitOnce [sep] s with
      | some (a, r) => (a, some r)
      | none => (s, none) := by
  induction s with
  | nil => rfl
  | cons c s ih =>
      unfold cut splitOnce
      by_cases hsep : c = sep
      · subst hsep
        rw [if_pos (beq_self_eq_true c), if_pos ⟨s, rfl⟩]
        rfl
      · have hstarts : ¬ [sep] <+: c :: s := fun h => hsep (List.cons_prefix_cons.mp h).1.symm
        rw [if_neg (by simpa using hsep), if_neg hstarts, ih]
        cases splitOnce [sep] s <;> rfl

/-- The reply of a text is the copy of its fields. -/
theorem parse_eq (resp : CStr) :
    ((strstr [13, 10, 13, 10] resp).bind fun s => parseReply (s.drop 4)) =
      (replyFields resp).map fun p => Reply.copy p.1.1 p.1.2 (p.2.takeWhile nameByte) := by
  rw [strstr_eq]
  unfold replyFields
  cases splitOnce [13, 10, 13, 10] resp with
  | none => rfl
  | some p =>
      obtain ⟨head, body⟩ := p
      show parseReply body = _
      unfold parseReply
      rw [strstr_eq]
      simp only [Option.bind_eq_bind, Option.bind_some]
      cases splitOnce (cs "#id,") body with
      | none => rfl
      | some p =>
          obtain ⟨before, line⟩ := p
          have hdrop : (cs "#id," ++ line).drop 4 = line := rfl
          simp only [Option.map_some, Option.bind_some, hdrop]
          rw [cut_eq]
          cases splitOnce [(',' : UInt8)] line with
          | none => rfl
          | some p =>
              obtain ⟨id, rest⟩ := p
              simp only [Option.bind_some]
              rw [cut_eq]
              cases splitOnce [(',' : UInt8)] rest with
              | none => rfl
              | some p => rfl

theorem replyFields_suffix {s : CStr} {p : CStr × CStr} {r : CStr}
    (h : replyFields s = some (p, r)) : r <:+ s ∧ ('#' : UInt8) ∈ s := by
  simp only [replyFields, Option.bind_eq_bind, Option.bind_eq_some_iff, Option.some.injEq,
    Prod.exists, Prod.mk.injEq] at h
  obtain ⟨_, body, hbody, _, line, hline, id, rest, hid, secret, rest', hsecret, -, rfl⟩ := h
  refine ⟨(splitOnce_suffix hsecret).trans ((splitOnce_suffix hid).trans
    ((splitOnce_suffix hline).trans (splitOnce_suffix hbody))), ?_⟩
  refine (splitOnce_suffix hbody).subset ?_
  rw [splitOnce_eq_append hline]
  exact List.mem_append_left _ (List.mem_append_right _ (by decide))

/-- **The fields of a text of which only the first part is there** are found exactly if their
commas are in that part. -/
theorem replyFields_append_iff {s t : CStr} {p : CStr × CStr} {r : CStr} :
    replyFields (s ++ t) = some (p, r ++ t) ↔ replyFields s = some (p, r) := by
  simp only [replyFields, Option.bind_eq_bind, Option.bind_eq_some_iff, Option.some.injEq,
    Prod.exists, Prod.mk.injEq]
  constructor
  · rintro ⟨head, body, hbody, before, line, hline, id, rest, hid, secret, rest', hsecret, hp,
      rfl⟩
    have hrest : t <:+ rest := (List.suffix_append r t).trans (splitOnce_suffix hsecret)
    have hline' : t <:+ line := hrest.trans (splitOnce_suffix hid)
    have hbody' : t <:+ body := hline'.trans (splitOnce_suffix hline)
    obtain ⟨body, rfl, hsplit⟩ := splitOnce_append_some hbody hbody'
    obtain ⟨line, rfl, hsplit'⟩ := splitOnce_append_some hline hline'
    obtain ⟨rest, rfl, hsplit''⟩ := splitOnce_append_some hid hrest
    exact ⟨head, body, hsplit, before, line, hsplit', id, rest, hsplit'', secret, r,
      splitOnce_append_iff.mp hsecret, hp, rfl⟩
  · rintro ⟨head, body, hbody, before, line, hline, id, rest, hid, secret, rest', hsecret, hp,
      rfl⟩
    exact ⟨head, _, splitOnce_append_iff.mpr hbody, before, _, splitOnce_append_iff.mpr hline, id,
      _, splitOnce_append_iff.mpr hid, secret, _, splitOnce_append_iff.mpr hsecret, hp, rfl⟩

/-! ### The status -/

theorem afterLiteral_append_of_mem {lit s : CStr} {c : UInt8} (hlit : c ∉ lit) (h : c ∈ s)
    (t : CStr) : afterLiteral lit (s ++ t) = (afterLiteral lit s).map (· ++ t) ∧
      ∀ r, afterLiteral lit s = some r → c ∈ r := by
  have hstarts : lit <+: s ++ t ↔ lit <+: s := by
    constructor
    · intro hlong
      rcases Nat.le_total lit.length s.length with hle | hle
      · exact List.prefix_of_prefix_length_le hlong (List.prefix_append s t) hle
      · have hall : s <+: lit := List.prefix_of_prefix_length_le (List.prefix_append s t) hlong hle
        exact absurd (hall.subset h) hlit
    · exact fun hshort => hshort.trans (List.prefix_append s t)
  unfold afterLiteral
  by_cases hp : lit <+: s
  · obtain ⟨r, rfl⟩ := hp
    rw [if_pos (hstarts.mpr ⟨r, rfl⟩), if_pos ⟨r, rfl⟩, List.append_assoc, List.drop_left,
      List.drop_left]
    refine ⟨rfl, fun r' heq => ?_⟩
    cases heq
    exact (List.mem_append.mp h).resolve_left hlit
  · rw [if_neg hp, if_neg fun hlong => hp (hstarts.mp hlong)]
    exact ⟨rfl, fun r heq => by cases heq⟩

/-- **The status line ends before the "#"** of the reply, whatever comes after. -/
theorem scanStatus_append_of_mem {s : CStr} (h : ('#' : UInt8) ∈ s) (t : CStr) :
    scanStatus (s ++ t) = scanStatus s := by
  have hnumber : ∀ s : CStr, ('#' : UInt8) ∈ s →
      strtol (s ++ t) = (strtol s).map (fun p => (p.1, p.2 ++ t)) ∧
        ∀ v r, strtol s = some (v, r) → ('#' : UInt8) ∈ r := fun s hs =>
    strtol_append_of_mem (by decide) (by decide) (by decide) (by decide) hs t
  unfold scanStatus
  simp only [Option.bind_eq_bind]
  have hscheme : ('#' : UInt8) ∉ cs "HTTP/" := by decide
  obtain ⟨hhttp, hmem⟩ := afterLiteral_append_of_mem hscheme h t
  rw [hhttp]
  cases hs : afterLiteral (cs "HTTP/") s with
  | none => rfl
  | some s =>
      obtain ⟨hmajor, hmem⟩ := hnumber s (hmem s hs)
      simp only [Option.map_some, Option.bind_some, hmajor]
      cases hs : strtol s with
      | none => rfl
      | some p =>
          obtain ⟨v, s⟩ := p
          have hpoint : ('#' : UInt8) ∉ cs "." := by decide
          obtain ⟨hdot, hmem⟩ := afterLiteral_append_of_mem hpoint (hmem v s hs) t
          simp only [Option.map_some, Option.bind_some, hdot]
          cases hs : afterLiteral (cs ".") s with
          | none => rfl
          | some s =>
              obtain ⟨hminor, hmem⟩ := hnumber s (hmem s hs)
              simp only [Option.map_some, Option.bind_some, hminor]
              cases hs : strtol s with
              | none => rfl
              | some p =>
                  obtain ⟨v, s⟩ := p
                  simp only [Option.map_some, Option.bind_some, (hnumber s (hmem v s hs)).1]
                  cases strtol s <;> rfl

/-! ### What is taken apart -/

theorem serverReply_eq_some_iff {response : List UInt8} {reply : ServerReply} :
    serverReply response = some reply ↔ ∃ status p rest, scanStatus response = some status ∧
      replyFields response = some (p, rest) ∧ (200 ≤ status ∧ status < 300) ∧
      reply = ⟨p.1, p.2, rest.takeWhile nameByte, response.length - rest.length⟩ := by
  simp only [serverReply, Option.bind_eq_bind, Option.bind_eq_some_iff, Prod.exists,
    Option.ite_none_right_eq_some, Option.some.injEq]
  constructor
  · rintro ⟨status, hstatus, id, secret, rest, hfields, hok, rfl⟩
    exact ⟨status, id, secret, rest, hstatus, hfields, hok, rfl⟩
  · rintro ⟨status, id, secret, rest, hstatus, hfields, hok, rfl⟩
    exact ⟨status, hstatus, id, secret, rest, hfields, hok, rfl⟩

theorem registerResponse_eq_ok_iff {received : List UInt8} {out : Reply} :
    registerResponse received = .ok out ↔ ∃ status p rest,
      scanStatus (ofBytes received) = some status ∧
      replyFields (ofBytes received) = some (p, rest) ∧ (200 ≤ status ∧ status < 300) ∧
      out = .copy p.1 p.2 (rest.takeWhile nameByte) := by
  unfold registerResponse
  simp only [parse_eq]
  cases scanStatus (ofBytes received) with
  | none => simp
  | some status =>
      simp only [Option.some.injEq, exists_and_left, exists_eq_left']
      by_cases hok : 200 ≤ status ∧ status < 300
      · rw [if_neg (by omega)]
        cases replyFields (ofBytes received) with
        | none => simp
        | some p =>
            simp only [Option.map_some, Except.ok.injEq, Option.some.injEq]
            constructor
            · rintro rfl
              exact ⟨p.1, p.2, rfl, hok, rfl⟩
            · rintro ⟨q, rest, rfl, -, rfl⟩
              rfl
      · rw [if_pos (by omega)]
        refine iff_of_false (fun h => by cases h) ?_
        rintro ⟨p, rest, -, hok', -⟩
        exact hok hok'

/-- As many bytes of a run as there are in the first part. -/
theorem takeWhile_append_take (p : UInt8 → Bool) (r t : CStr) :
    ((r ++ t).takeWhile p).take r.length = r.takeWhile p := by
  rw [List.takeWhile_append]
  split_ifs with hall
  · rw [List.take_left, (List.takeWhile_prefix p).eq_of_length hall]
  · exact List.take_of_length_le (List.takeWhile_prefix p).length_le

/-- **What the text read gives**: the fields of the whole response, if it gets as far as the name,
and the name as far as it goes. -/
theorem registerResponse_ok_iff {received response : List UInt8}
    (htext : ofBytes received <+: response) {out : Reply} :
    registerResponse received = .ok out ↔ ∃ reply, serverReply response = some reply ∧
      reply.nameStart ≤ (ofBytes received).length ∧
      out = .copy reply.id reply.secret
        (reply.name.take ((ofBytes received).length - reply.nameStart)) := by
  rw [registerResponse_eq_ok_iff]
  generalize ofBytes received = s at htext
  obtain ⟨t, rfl⟩ := htext
  have hname : ∀ r : CStr, r.length ≤ s.length →
      ((r ++ t).takeWhile nameByte).take (s.length - ((s ++ t).length - (r ++ t).length)) =
        r.takeWhile nameByte := by
    intro r hr
    have hlength : s.length - ((s ++ t).length - (r ++ t).length) = r.length := by
      simp only [List.length_append]
      omega
    rw [hlength, takeWhile_append_take]
  simp only [serverReply_eq_some_iff]
  constructor
  · rintro ⟨status, p, rest, hstatus, hfields, hok, rfl⟩
    obtain ⟨hsuffix, hmark⟩ := replyFields_suffix hfields
    refine ⟨_, ⟨status, p, rest ++ t, ?_, replyFields_append_iff.mpr hfields, hok, rfl⟩, ?_, ?_⟩
    · rw [scanStatus_append_of_mem hmark, hstatus]
    · simp only [List.length_append]
      omega
    · simp only [hname rest hsuffix.length_le]
  · rintro ⟨reply, ⟨status, p, rest, hstatus, hfields, hok, rfl⟩, hstart, rfl⟩
    -- The name starts in the text, so what is missing comes after that.
    have hrest := (replyFields_suffix hfields).1
    have hlength := hrest.length_le
    simp only [List.length_append] at hstart hlength
    obtain ⟨rest, rfl⟩ : t <:+ rest :=
      List.suffix_of_suffix_length_le (List.suffix_append s t) hrest (by omega)
    have hfields' := replyFields_append_iff.mp hfields
    obtain ⟨hsuffix, hmark⟩ := replyFields_suffix hfields'
    rw [scanStatus_append_of_mem hmark] at hstatus
    refine ⟨status, p, rest, hstatus, hfields', hok, ?_⟩
    simp only [hname rest hsuffix.length_le]

/-! ### What is reported -/

theorem ofBytes_isPrefix (l : List UInt8) : ofBytes l <+: l := List.takeWhile_prefix _

theorem text_isPrefix (calls : HttpCalls) (unread : List UInt8) :
    calls.text <+: delivered calls.received ++ unread :=
  (ofBytes_isPrefix _).trans ((List.take_prefix _ _).trans (List.prefix_append _ _))

/-- A clipped text is the whole one if it fits. -/
theorem clip_eq_self_iff {cap : ℕ} (hcap : 0 < cap) {s : CStr} :
    clip cap s = s ↔ s.length < cap := by
  unfold clip
  rw [List.take_eq_self_iff]
  omega

/-- **The outputs of a success** are the server's fields exactly if the name was read to its end
and the fields fit. -/
theorem copy_eq_iff {reply : ServerReply} {length : ℕ} (hstart : reply.nameStart ≤ length) :
    ((Reply.copy reply.id reply.secret (reply.name.take (length - reply.nameStart))).id = reply.id ∧
      (Reply.copy reply.id reply.secret (reply.name.take (length - reply.nameStart))).secret =
        reply.secret ∧
      (Reply.copy reply.id reply.secret
        (reply.name.take (length - reply.nameStart))).verifiedName = reply.name) ↔
      reply.nameStart + reply.name.length ≤ length ∧ reply.Fits := by
  show clip regIdLen reply.id = reply.id ∧ clip regSecretLen reply.secret = reply.secret ∧
    clip regVerifiedNameLen (reply.name.take (length - reply.nameStart)) = reply.name ↔ _
  have hname : clip regVerifiedNameLen (reply.name.take (length - reply.nameStart)) = reply.name ↔
      reply.nameStart + reply.name.length ≤ length ∧ reply.name.length < regVerifiedNameLen := by
    unfold clip regVerifiedNameLen
    rw [List.take_take, List.take_eq_self_iff]
    omega
  rw [clip_eq_self_iff (by decide), clip_eq_self_iff (by decide), hname]
  unfold ServerReply.Fits
  tauto

/-- What an exchange that went through comes to. -/
theorem registerExchange_ok_iff (unread : List UInt8) (hfits : RequestFits host code imei name)
    (hsent : calls.Sent host code imei name) (hreceived : calls.Received) {out : Reply} :
    registerExchange host code imei name calls = .ok out ↔
      ∃ reply, serverReply (delivered calls.received ++ unread) = some reply ∧
        reply.nameStart ≤ calls.text.length ∧
        out = .copy reply.id reply.secret
          (reply.name.take (calls.text.length - reply.nameStart)) := by
  rw [registerExchange_received hfits hsent hreceived]
  exact registerResponse_ok_iff (text_isPrefix calls unread)

/-- Success without a reply leaves the output arrays as they were. -/
theorem registerHttpRequest_eq_zero
    (h : (registerHttpRequest host code imei name calls).1 = 0) :
    registerExchange host code imei name calls = .error 0 ∨
      ∃ out, registerExchange host code imei name calls = .ok out ∧
        (registerHttpRequest host code imei name calls).2 = out := by
  cases hx : registerExchange host code imei name calls with
  | error err =>
      rw [registerHttpRequest_error hx] at h
      exact .inl (congrArg Except.error h)
  | ok out => exact .inr ⟨out, rfl, congrArg Prod.snd (registerHttpRequest_ok hx)⟩

theorem Covers.success {unread : List UInt8} (h : Covers host code imei name calls unread)
    (hzero : (registerHttpRequest host code imei name calls).1 = 0) :
    calls.Sent host code imei name ∧
      ∃ reply, serverReply (delivered calls.received ++ unread) = some reply ∧
        (registerHttpRequest host code imei name calls).2.id = reply.id ∧
        (registerHttpRequest host code imei name calls).2.secret = reply.secret ∧
        (registerHttpRequest host code imei name calls).2.verifiedName = reply.name := by
  have hout := registerHttpRequest_eq_zero hzero
  by_cases hfits : RequestFits host code imei name
  · by_cases hwent : calls.Sent host code imei name ∧ calls.Received
    · obtain ⟨hsent, hreceived⟩ := hwent
      rcases hout with hout | ⟨out, hout, hsnd⟩
      · rw [registerExchange_received hfits hsent hreceived] at hout
        exact absurd hout (registerResponse_ne_zero _)
      · obtain ⟨reply, hreply, hstart, rfl⟩ :=
          (registerExchange_ok_iff unread hfits hsent hreceived).mp hout
        refine ⟨hsent, reply, hreply, ?_⟩
        rw [hsnd]
        exact (copy_eq_iff hstart).mpr (h.reply hfits hsent hreceived reply hreply hstart)
    · have herrno : calls.errno = 0 := by
        rw [registerExchange_short hfits hwent] at hout
        rcases hout with hout | ⟨out, hout, -⟩
        · exact neg_eq_zero.mp (Except.error.inj hout)
        · cases hout
      exact absurd (h.errno hfits herrno) hwent
  · rw [registerExchange_unfit hfits] at hout
    rcases hout with hout | ⟨out, hout, -⟩
    · exact absurd (Except.error.inj hout) (by decide)
    · cases hout

/-- A response that was received as a whole, holds no NUL, and fits the buffers is taken. -/
theorem register_takes (hfits : RequestFits host code imei name)
    (hsent : calls.Sent host code imei name) (hreceived : calls.Received)
    (hnul : (0 : UInt8) ∉ delivered calls.received)
    (hlength : (delivered calls.received).length ≤ regRespBufSize - 1) {reply : ServerReply}
    (hreply : serverReply (delivered calls.received) = some reply) :
    (registerHttpRequest host code imei name calls).1 = 0 := by
  have htext : calls.text = delivered calls.received := by
    unfold HttpCalls.text
    rw [List.take_of_length_le hlength, ofBytes_of_not_mem hnul]
  have hstart : reply.nameStart ≤ calls.text.length := by
    obtain ⟨_, _, rest, -, -, -, rfl⟩ := serverReply_eq_some_iff.mp hreply
    rw [htext]
    exact Nat.sub_le _ _
  have hok := (registerExchange_ok_iff [] hfits hsent hreceived).mpr
    ⟨reply, by rw [List.append_nil, hreply], hstart, rfl⟩
  rw [registerHttpRequest_ok hok]

/-- Two contents of the output arrays that differ. -/
def blankReply : Reply := .copy [] [] []
def staleReply : Reply := .copy (cs "1") [] []

/-- **When a registration reports the truth.**  For every request, every result of its sends and
receives with any `errno`, and any rest of the server's response that was never received: success
means that the request went out and that the outputs are the server's fields, and a response that
fits is taken, exactly when no call falls short with `errno` at 0 and the text read, if it gets as
far as the name, covers the name and its fields fit. -/
theorem register_exact_iff (host code imei name : CStr) (calls : HttpCalls) (unread : List UInt8) :
    ReportsExactly host code imei name calls unread ↔ Covers host code imei name calls unread := by
  constructor
  · intro h
    refine ⟨fun hfits herrno => ?_, fun hfits hsent hreceived reply hreply hstart => ?_⟩
    · by_contra hwent
      -- The outputs are then what was there before, which cannot be right for both contents.
      have hleft : ∀ stack : Reply,
          registerHttpRequest host code imei name { calls with stack := stack } = (0, stack) := by
        intro stack
        refine registerHttpRequest_error ?_
        have hshort : registerExchange host code imei name { calls with stack := stack } = _ :=
          registerExchange_short hfits hwent
        rw [hshort]
        exact congrArg Except.error (neg_eq_zero.mpr herrno)
      obtain ⟨-, reply, hreply, hid, -⟩ := h.success blankReply (by rw [hleft])
      obtain ⟨-, reply', hreply', hid', -⟩ := h.success staleReply (by rw [hleft])
      rw [hleft] at hid hid'
      rw [hreply] at hreply'
      cases hreply'
      exact absurd (hid.trans hid'.symm) (by decide)
    · have hok := (registerExchange_ok_iff unread hfits hsent hreceived).mpr
        ⟨reply, hreply, hstart, rfl⟩
      have hout := registerHttpRequest_ok hok
      obtain ⟨-, reply', hreply', hfields⟩ := h.success calls.stack (by rw [hout])
      rw [hreply] at hreply'
      cases hreply'
      rw [hout] at hfields
      exact (copy_eq_iff hstart).mp hfields
  · intro h
    refine ⟨fun stack hzero => ?_,
      fun hfits hsent hreceived _ hnul hlength reply hreply _ => ?_⟩
    · have hcovers : Covers host code imei name { calls with stack := stack } unread :=
        ⟨h.errno, h.reply⟩
      exact hcovers.success hzero
    · exact register_takes hfits hsent hreceived hnul hlength hreply

/-- The first `send` takes only 100 bytes, which is no error that sets `errno`. -/
def shortSend : HttpCalls where
  sentHead := 100
  sentBody := 0
  received := []
  errno := 0
  stack := staleReply

/-- Nothing was asked of the server, and what was in the output arrays is reported. -/
theorem short_send_reported :
    registerHttpRequest (cs "cloud") (cs "123456") (cs "350000000000006") (cs "lamp") shortSend =
        (0, staleReply) ∧
      ¬ ReportsExactly (cs "cloud") (cs "123456") (cs "350000000000006") (cs "lamp") shortSend
        [] := by
  have hout : registerHttpRequest (cs "cloud") (cs "123456") (cs "350000000000006") (cs "lamp")
      shortSend = (0, staleReply) := by decide +kernel
  refine ⟨hout, fun h => ?_⟩
  have hsent := (h.success staleReply (by rw [show { shortSend with stack := staleReply } =
    shortSend from rfl, hout])).1
  unfold HttpCalls.Sent at hsent
  revert hsent
  decide +kernel

/-- The connection is closed within the name: "la" is reported for "lamp". -/
example : registerHttpRequest (cs "cloud") (cs "123456") (cs "350000000000006") (cs "lamp")
    { sentHead := 117
      sentBody := 34
      received := [some (cs "HTTP/1.1 200 OK\r\n\r\n#id,7,s3cr3t,la"), some []]
      errno := 0
      stack := blankReply } =
    (0, .copy (cs "7") (cs "s3cr3t") (cs "la")) := by
  decide +kernel

end NodemFirmware.Cloud
