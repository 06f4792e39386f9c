import SocksProxy.Mgmt.Protocol

/-! The terminal client of `client.c`: the requests that it sends and what it
makes of the octets that come back. -/

namespace SocksProxy

/-- `recv_exact`, on the octets that the server sends before it closes. -/
def recvExact (len : Nat) (stream : List UInt8) :
    Option (List UInt8 × List UInt8) :=
  if stream.length < len then none else some (stream.take len, stream.drop len)

def getU16 (p : List UInt8) (i : Nat) : Nat :=
  (octetAt p i).toNat * 256 + (octetAt p (i + 1)).toNat

def getU32 (p : List UInt8) (i : Nat) : Nat := u32At p i

def getU64 (p : List UInt8) (i : Nat) : Nat :=
  (List.range 8).foldl (fun v j => v * 256 + (octetAt p (i + j)).toNat) 0

def isSpace (octet : UInt8) : Bool :=
  octet == 32 || decide (9 ≤ octet ∧ octet ≤ 13)

def isDigit (octet : UInt8) : Bool := decide (48 ≤ octet ∧ octet ≤ 57)

def digitsValue (digits : List UInt8) : Nat :=
  digits.foldl (fun value digit => value * 10 + (digit.toNat - 48)) 0

/-- Whether a minus sign leads a text, and what follows a sign. -/
def leadingSign : List UInt8 → Bool × List UInt8
  | 45 :: rest => (true, rest)
  | 43 :: rest => (false, rest)
  | text => (false, text)

/-- `strtoul(value, NULL, 10)`, with an `unsigned long` of 64 bits. -/
def strtoul (value : CString) : Nat :=
  let (negative, digits) := leadingSign (value.octets.dropWhile isSpace)
  let magnitude := digitsValue (digits.takeWhile isDigit)
  if magnitude ≥ 2 ^ 64 then 2 ^ 64 - 1
  else if negative then (2 ^ 64 - magnitude) % 2 ^ 64
  else magnitude

def clientField (field : CString) : Option (List UInt8) :=
  if field.strlen = 0 ∨ field.strlen > 255 then none
  else some (field.strlen.toUInt8 :: field.octets)

def doAuthRequest (user pass : CString) : Option (List UInt8) :=
  (clientField user).bind fun user =>
    (clientField pass).map fun pass => smpVersion :: (user ++ pass)

def cmdMetricsRequest : List UInt8 := [smpVersion, smpCmdMetrics]
def cmdGetConfigRequest : List UInt8 := [smpVersion, smpCmdGetConfig]
def cmdListUsersRequest : List UInt8 := [smpVersion, smpCmdListUsers]

def cmdAddUserRequest (user pass : CString) : Option (List UInt8) :=
  (clientField user).bind fun user =>
    (clientField pass).map fun pass =>
      smpVersion :: smpCmdAddUser :: (user ++ pass)

def cmdDelUserRequest (user : CString) : Option (List UInt8) :=
  (clientField user).map fun user => smpVersion :: smpCmdDelUser :: user

def u32Octets (v : Nat) : List UInt8 :=
  [(v / 2 ^ 24).toUInt8, (v / 2 ^ 16).toUInt8, (v / 2 ^ 8).toUInt8, v.toUInt8]

def cmdSetConfigRequest (key value : CString) : Option (List UInt8) :=
  if key = .ofString "buffer-size" then
    some (smpVersion :: smpCmdSetConfig :: smpCfgIoBufferSize ::
      u32Octets (strtoul value % 2 ^ 32))
  else if key = .ofString "timeout" then
    some (smpVersion :: smpCmdSetConfig :: smpCfgConnTimeout ::
      u32Octets (strtoul value % 2 ^ 32))
  else if key = .ofString "auth-required" then
    some [smpVersion, smpCmdSetConfig, smpCfgAuthRequired,
      if strtoul value ≠ 0 then 1 else 0]
  else none

/-- What `do_request` takes from a response: the fields of the header that its
callers look at, and the data. -/
structure SmpResponse where
  cmd : UInt8
  status : UInt8
  data : List UInt8
  deriving DecidableEq, Repr

/-- The receiving half of `do_request`. -/
def doRequest (stream : List UInt8) : Option SmpResponse :=
  (recvExact 5 stream).bind fun (hdr, rest) =>
    (recvExact (getU16 hdr 3) rest).map fun (data, _) =>
      ⟨octetAt hdr 1, octetAt hdr 2, data⟩

def cmdMetrics (stream : List UInt8) : Option (List Nat) :=
  (doRequest stream).bind fun response =>
    if response.status ≠ smpOk ∨ response.data.length < 56 then none
    else some ([0, 8, 16, 24, 32, 40, 48].map (getU64 response.data))

def cmdGetConfig (stream : List UInt8) : Option (Nat × Nat × Bool) :=
  (doRequest stream).bind fun response =>
    if response.status ≠ smpOk ∨ response.data.length < 9 then none
    else some (getU32 response.data 0, getU32 response.data 4,
      octetAt response.data 8 != 0)

/-- The loop of `cmd_list_users`, with the number of names left. -/
def listUsersLoop (data : List UInt8) : Nat → Nat → List CString
  | 0, _ => []
  | left + 1, off =>
      if off < data.length then
        let ulen := (octetAt data off).toNat
        if off + 1 + ulen > data.length then []
        else
          .ofArray (slice data (off + 1) ulen) ::
            listUsersLoop data left (off + 1 + ulen)
      else []

def cmdListUsers (stream : List UInt8) : Option (List CString) :=
  (doRequest stream).bind fun response =>
    if response.status ≠ smpOk ∨ response.data.length < 2 then none
    else some (listUsersLoop response.data (getU16 response.data 0) 2)

def cmdStatus (stream : List UInt8) : Option UInt8 :=
  (doRequest stream).map SmpResponse.status

end SocksProxy
