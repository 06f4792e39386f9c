import SocksProxy.Socks5.Machine

/-! How `socks5_new` prepares a connection object, fresh or recycled. -/

namespace SocksProxy

private def zeroDns : DnsRequest := ⟨0, 0, .empty, .empty, [], 0⟩

private def zeroPop3 : Pop3Sniffer :=
  ⟨List.replicate 512 0, 0, false, .empty, false⟩

/-- The object after `memset(s, 0, sizeof(*s))`, or from `calloc`.  The octets
of the two blocks are not part of the object and stay as they were. -/
def Socks5.zeroed (readBlock writeBlock : Nat → UInt8) : Socks5 where
  clientFd := 0
  originFd := some 0
  clientAddr := ⟨.other 0, [], 0⟩
  current := none
  hello := ⟨.version, 0, false, false⟩
  auth := ⟨.version, 0, 0, 0, List.replicate 256 0, List.replicate 256 0⟩
  request := ⟨.version, 0, 0, 0, 0, List.replicate 256 0, 0, 0⟩
  method := 0
  authOk := false
  username := .empty
  addrs := []
  addrIdx := 0
  dns := zeroDns
  resolving := false
  destHost := .empty
  destPort := 0
  reply := 0
  clientEof := false
  originEof := false
  clientWrShut := false
  originWrShut := false
  sniffPop3 := false
  pop3 := zeroPop3
  rawRead := none
  rawWrite := none
  readBuffer := bufferInit 0 readBlock
  writeBuffer := bufferInit 0 writeBlock
  bufferSize := 0
  references := 0

/-- The recycled object: only the blocks and their length survive. -/
def Socks5.recycled (old : Socks5) : Socks5 :=
  { Socks5.zeroed old.readBuffer.data old.writeBuffer.data with
    rawRead := old.rawRead
    rawWrite := old.rawWrite
    bufferSize := old.bufferSize }

/-- What `malloc` returns for the two blocks: a block has arbitrary octets. -/
structure BlockAnswers where
  rawRead : Option (Nat → UInt8)
  rawWrite : Option (Nat → UInt8)

/-- The block length that a new connection gets. -/
def wantedSize (config : ProxyConfig) : Nat :=
  if config.ioBufferSize < configMinBuffer then configMinBuffer
  else config.ioBufferSize

/-- Replace blocks of another length; `none` when memory ran out. -/
def allocateBlocks (want : Nat) (blocks : BlockAnswers) (s : Socks5) :
    Option Socks5 :=
  if s.rawRead = none ∨ s.bufferSize ≠ want then
    match blocks.rawRead, blocks.rawWrite with
    | some readBlock, some writeBlock =>
        some { s with
          rawRead := some want
          rawWrite := some want
          bufferSize := want
          readBuffer := bufferInit 0 readBlock
          writeBuffer := bufferInit 0 writeBlock }
    | _, _ => none
  else some s

def initialise (clientFd : Fd) (s : Socks5) : Socks5 :=
  { s with
    clientFd := clientFd
    originFd := none
    references := 0
    username := .empty
    reply := repSuccess
    readBuffer := bufferInit s.bufferSize s.readBuffer.data
    writeBuffer := bufferInit s.bufferSize s.writeBuffer.data
    sniffPop3 := false
    pop3 := pop3SnifferInit s.pop3
    hello := helloParserInit
    auth := authParserInit s.auth
    request := requestParserInit s.request
    current := none }

/-- `socks5_new` on an object taken from the pool, or on a new one. -/
def prepare (config : ProxyConfig) (clientFd : Fd) (blocks : BlockAnswers)
    (old : Option Socks5) : Option Socks5 :=
  let s :=
    match old with
    | some old => old.recycled
    | none => Socks5.zeroed (fun _ => 0) (fun _ => 0)
  (allocateBlocks (wantedSize config) blocks s).map (initialise clientFd)

theorem le_wantedSize (config : ProxyConfig) :
    configMinBuffer ≤ wantedSize config := by
  unfold wantedSize
  split <;> omega

/-- What every prepared object looks like: only the octets of its blocks depend
on where it came from. -/
theorem prepare_eq {config : ProxyConfig} {clientFd : Fd}
    {blocks : BlockAnswers} {old : Option Socks5} {s : Socks5}
    (prepared : prepare config clientFd blocks old = some s) :
    ∃ rawRead rawWrite readBlock writeBlock,
      s = initialise clientFd
        { Socks5.zeroed readBlock writeBlock with
          rawRead := rawRead
          rawWrite := rawWrite
          bufferSize := wantedSize config } := by
  cases old with
  | none =>
      simp only [prepare, Option.map_eq_some_iff] at prepared
      obtain ⟨object, allocated, rfl⟩ := prepared
      rw [allocateBlocks, if_pos (.inl rfl)] at allocated
      split at allocated
      next readBlock writeBlock _ _ =>
        cases allocated
        exact ⟨_, _, readBlock, writeBlock, rfl⟩
      next => cases allocated
  | some old =>
      simp only [prepare, Option.map_eq_some_iff] at prepared
      obtain ⟨object, allocated, rfl⟩ := prepared
      unfold allocateBlocks at allocated
      split at allocated
      next =>
        split at allocated
        next readBlock writeBlock _ _ =>
          cases allocated
          exact ⟨_, _, readBlock, writeBlock, rfl⟩
        next => cases allocated
      next fitting =>
        cases allocated
        simp only [not_or, ne_eq, not_not] at fitting
        refine ⟨old.rawRead, old.rawWrite, old.readBuffer.data,
          old.writeBuffer.data, ?_⟩
        rw [← fitting.2]
        rfl

end SocksProxy
