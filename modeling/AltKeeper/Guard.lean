import AltKeeper.Base64

-- What stands before every route of the page: who is let in, and what the others are told.
namespace AltKeeper.Web

-- The names are in lower case, and the first value of a name is the one that is read.
abbrev HeaderMap := List (Str × Octets)

def HeaderMap.get (headers : HeaderMap) (name : String) : Option Octets :=
  List.lookup name.toList headers

def HeaderMap.insert (headers : HeaderMap) (name value : String) : HeaderMap :=
  headers.filter (·.1 ≠ name.toList) ++ [(name.toList, Utf8.encode value.toList)]

-- `HeaderValue::to_str`: visible ASCII characters, blanks and tabs.
def to_str (value : Octets) : Option Str :=
  if value.all fun b => (32 ≤ b && b < 127) || b == 9 then
    some (value.map fun b => Char.ofNat b.toNat)
  else none

inductive Method where
  | get
  | post
  | other (token : Str)
  deriving DecidableEq

structure Request where
  method : Method
  headers : HeaderMap

structure Response where
  status : Nat
  headers : HeaderMap
  body : Octets

section Password

-- The shorter one is read as if it ended with zeros; no difference ends the comparison.
def ct_eq (a b : Octets) : Bool :=
  let diff := (List.range (max a.length b.length)).foldl
    (fun diff i => diff ||| (a.getD i 0 ^^^ b.getD i 0).toNat) (a.length ^^^ b.length)
  diff == 0

def basic_password_ok (headers : HeaderMap) (pin : Str) : Bool :=
  match (headers.get "authorization").bind to_str with
  | none => false
  | some value =>
      match value.dropPrefix? "Basic ".toList with
      | none => false
      | some encoded =>
          match b64_decode (Str.trim encoded) with
          | none => false
          | some raw =>
              match Utf8.decode? raw with
              | none => false
              | some text =>
                  let password := ((Str.split_once text ':').map (·.2)).getD text
                  ct_eq (Utf8.encode password) (Utf8.encode pin)

example : ct_eq [0x31] [0x31, 0x00] = false := by decide

end Password

section Host

-- What is looked at of a `Host`: the text in brackets, or what comes before a colon.
def authority_name (host : Str) : Str :=
  match host with
  | '[' :: rest => (rest.splitOn ']').headD []
  | _ => (host.splitOn ':').headD []

def host_is_local (headers : HeaderMap) : Bool :=
  match (headers.get "host").bind to_str with
  | none => false
  | some host =>
      ["localhost".toList, "127.0.0.1".toList, "::1".toList].contains (authority_name host)

end Host

section Guard

-- A status with a text, as the framework answers with it.
def text_response (status : Nat) (body : String) : Response :=
  { status
    headers := HeaderMap.insert [] "content-type" "text/plain; charset=utf-8"
    body := Utf8.encode body.toList }

-- The answer to a request that goes no further, after a delay of that many seconds.
def refusal (pin : Option Str) (req : Request) : Option (Nat × Response) :=
  if pin.isNone ∧ ¬ host_is_local req.headers then some (0, text_response 403 "host non ammesso")
  else if pin.any fun pin => !basic_password_ok req.headers pin then
    let res := text_response 401 "serve il PIN"
    some (1, { res with
      headers := res.headers.insert "www-authenticate" "Basic realm=\"altkeeper\"" })
  else if req.method = .post ∧
      req.headers.get "x-requested-with" ≠ some (Utf8.encode "altkeeper".toList) then
    some (0, text_response 403 "richiesta non valida")
  else none

def protect (headers : HeaderMap) : HeaderMap :=
  ((((headers.insert "cache-control" "no-store").insert "x-content-type-options" "nosniff").insert
    "x-frame-options" "DENY").insert "referrer-policy" "no-referrer").insert
    "content-security-policy"
    ("default-src 'none'; connect-src 'self'; style-src 'unsafe-inline'; " ++
      "script-src 'unsafe-inline'; base-uri 'none'; form-action 'none'")

-- `next` is the route that the request goes to.
def guard (pin : Option Str) (next : Request → Response) (req : Request) : Nat × Response :=
  match refusal pin req with
  | some refused => refused
  | none =>
      let res := next req
      (0, { res with headers := protect res.headers })

end Guard

end AltKeeper.Web
