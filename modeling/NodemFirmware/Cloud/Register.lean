import NodemFirmware.Lib.Text

/-! # The registration request

`register_http_request`: the request it sends, the loop that receives the response, and what
it makes of it, the HTTP status and the `#id,<id>,<secret>,<name>` line in the body.

`Reply` is what the three output arrays hold, texts that fit them. -/

namespace NodemFirmware.Cloud

open CText

/-- `REG_CODE_LEN`, `REG_CODE_REJECTED` and the bounds of a name. -/
def regCodeLen : ℕ := 6
def regCodeRejected : CStr := cs "0"
def regNameMinLen : ℕ := 3
def regNameMaxLen : ℕ := 64

/-- `REG_ID_LEN`, `REG_SECRET_LEN`, `REG_VERIFIED_NAME_LEN`. -/
def regIdLen : ℕ := 64
def regSecretLen : ℕ := 64
def regVerifiedNameLen : ℕ := 128

def regRespBufSize : ℕ := 1024

/-- `id`, `secret` and `verified_name` of `step_register`. -/
structure Reply where
  id : CStr
  secret : CStr
  verifiedName : CStr
  id_fits : id.length < regIdLen
  secret_fits : secret.length < regSecretLen
  name_fits : verifiedName.length < regVerifiedNameLen
deriving DecidableEq

theorem clip_length_lt {cap : ℕ} (h : 0 < cap) (s : CStr) : (clip cap s).length < cap := by
  unfold clip
  rw [List.length_take]
  omega

/-- `strncpy` into the three buffers. -/
def Reply.copy (id secret name : CStr) : Reply :=
  ⟨clip regIdLen id, clip regSecretLen secret, clip regVerifiedNameLen name,
    clip_length_lt (by decide) id, clip_length_lt (by decide) secret,
    clip_length_lt (by decide) name⟩

/-- `strstr`: the text from the first occurrence on. -/
def strstr (needle : CStr) : CStr → Option CStr
  | [] => if needle = [] then some [] else none
  | c :: s => if needle <+: c :: s then some (c :: s) else strstr needle s

/-- The text after `lit`, if it starts with it. -/
def afterLiteral (lit s : CStr) : Option CStr :=
  if lit <+: s then some (s.drop lit.length) else none

/-- `sscanf(resp, "HTTP/%*d.%*d %d", &status)`. -/
def scanStatus (s : CStr) : Option ℤ := do
  let s ← afterLiteral (cs "HTTP/") s
  let (_, s) ← strtol s
  let s ← afterLiteral (cs ".") s
  let (_, s) ← strtol s
  let (status, _) ← strtol s
  some status

/-- The fields after "#id,". -/
def parseReply (body : CStr) : Option Reply := do
  let start ← strstr (cs "#id,") body
  let (id, rest) := cut ',' (start.drop 4)
  let rest ← rest
  let (secret, rest) := cut ',' rest
  let rest ← rest
  let name := rest.takeWhile fun c => c ≠ (',' : UInt8) && c ≠ 13 && c ≠ 10
  some (.copy id secret name)

/-- What was received, taken apart. -/
def registerResponse (received : List UInt8) : Except ℤ Reply :=
  let resp := ofBytes received
  match scanStatus resp with
  | none => .error (-Errno.io)
  | some status =>
      if status < 200 ∨ 300 ≤ status then .error (-Errno.io)
      else
        match (strstr [13, 10, 13, 10] resp).bind fun s => parseReply (s.drop 4) with
        | none => .error (-Errno.inval)
        | some reply => .ok reply

/-! ### The IMEI -/

def regImeiLen : ℕ := 20

/-- `get_imei`: the digits that the modem's answer starts with. -/
def getImei (resp : CStr) : Option CStr :=
  let digits := resp.takeWhile isdigit
  if digits = [] ∨ regImeiLen ≤ digits.length then none else some digits

/-! ### The exchange with the server -/

def requestBodyLen : ℕ := 160

def requestHeadLen : ℕ := 384

def requestBody (code imei name : CStr) : CStr :=
  cs "#reg," ++ code ++ cs "," ++ imei ++ cs "," ++ name ++ cs "\r\n"

def requestHead (host : CStr) (bodyLen : ℕ) : CStr :=
  cs "POST /api/devices/register HTTP/1.1\r\nHost: " ++ host ++
    cs "\r\nContent-Type: text/plain\r\nContent-Length: " ++ fmtU bodyLen ++
    cs "\r\nConnection: close\r\n\r\n"

/-- What the calls of `register_http_request` come to: the counts its two `send`s return, what
each `recv` returns (none where it fails, nothing where the server closed the connection),
`errno` where one of them falls short, and what the output arrays held before. -/
structure HttpCalls where
  sentHead : ℤ
  sentBody : ℤ
  received : List (Option (List UInt8))
  errno : ℤ
  stack : Reply

/-- The receive loop; after the last `recv` listed the connection is closed. -/
def recvResponse : List (Option (List UInt8)) → List UInt8 → Option (List UInt8)
  | [], resp => some resp
  | n :: rest, resp =>
      if regRespBufSize - 1 ≤ resp.length then some resp
      else
        match n with
        | none => none
        | some [] => some resp
        | some bytes =>
            recvResponse rest (resp ++ bytes.take (regRespBufSize - 1 - resp.length))

/-- What `register_http_request` returns, or the reply it was given. -/
def registerExchange (host code imei name : CStr) (calls : HttpCalls) : Except ℤ Reply :=
  let body := requestBody code imei name
  let head := requestHead host body.length
  if requestBodyLen ≤ body.length ∨ requestHeadLen ≤ head.length then .error (-Errno.inval)
  else if calls.sentHead ≠ head.length ∨ calls.sentBody ≠ body.length then .error (-calls.errno)
  else
    match recvResponse calls.received [] with
    | none => .error (-calls.errno)
    | some received => registerResponse received

/-- `register_http_request`: what it returns, and what the output arrays then hold. -/
def registerHttpRequest (host code imei name : CStr) (calls : HttpCalls) : ℤ × Reply :=
  match registerExchange host code imei name calls with
  | .error err => (err, calls.stack)
  | .ok reply => (0, reply)

/-- Every byte was sent, and every `recv` went through. -/
def HttpCalls.Complete (calls : HttpCalls) (host code imei name : CStr) : Prop :=
  calls.sentHead = (requestHead host (requestBody code imei name).length).length ∧
    calls.sentBody = (requestBody code imei name).length ∧
    (recvResponse calls.received []).isSome

instance (calls : HttpCalls) (host code imei name : CStr) :
    Decidable (calls.Complete host code imei name) :=
  inferInstanceAs (Decidable (_ ∧ _))

theorem registerResponse_ne_zero (received : List UInt8) :
    registerResponse received ≠ .error 0 := by
  unfold registerResponse
  simp only
  split
  · simp [Errno.io]
  · split_ifs
    · simp [Errno.io]
    · split <;> simp [Errno.inval]

/-- An exchange that does not say what went wrong: a call fell short and left `errno` at 0. -/
theorem registerExchange_zero {host code imei name : CStr} {calls : HttpCalls}
    (h : registerExchange host code imei name calls = .error 0) :
    calls.errno = 0 ∧ ¬ calls.Complete host code imei name := by
  unfold registerExchange at h
  simp only at h
  split_ifs at h with hlen hsent
  · simp [Errno.inval] at h
  · refine ⟨by simpa using h, ?_⟩
    intro hc
    rcases hsent with hsent | hsent
    · exact hsent hc.1
    · exact hsent hc.2.1
  · split at h
    · next hrecv =>
      refine ⟨by simpa using h, ?_⟩
      intro hc
      have hsome := hc.2.2
      rw [hrecv] at hsome
      cases hsome
    · exact absurd h (registerResponse_ne_zero _)

theorem registerHttpRequest_error {host code imei name : CStr} {calls : HttpCalls} {err : ℤ}
    (h : registerExchange host code imei name calls = .error err) :
    registerHttpRequest host code imei name calls = (err, calls.stack) := by
  unfold registerHttpRequest
  rw [h]

theorem registerHttpRequest_ok {host code imei name : CStr} {calls : HttpCalls} {reply : Reply}
    (h : registerExchange host code imei name calls = .ok reply) :
    registerHttpRequest host code imei name calls = (0, reply) := by
  unfold registerHttpRequest
  rw [h]

end NodemFirmware.Cloud
