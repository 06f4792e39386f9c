import SocksProxy.Socks5.Transitions

/-! Which calls the handlers of each state make, and which fields they keep. -/

namespace SocksProxy

def Call.reads : Call → Prop
  | .recv .. | .recvFailed .. => True
  | _ => False

def Call.writes : Call → Prop
  | .send .. | .sendFailed .. => True
  | _ => False

def Call.negotiates : Call → Prop
  | .chooseMethod .. | .usersCheck .. => True
  | _ => False

def Call.relays : Call → Prop
  | .shutdown _ | .pop3SnifferFeed _ | .loggerPop3 _ => True
  | _ => False

def SocksState.mayCall (st : SocksState) (made : Call) : Prop :=
  match st with
  | .helloRead | .authRead => made.reads ∨ made.negotiates
  | .helloWrite | .authWrite => made.writes
  | .requestRead => made.reads ∨ made = .requestParserConsume ∨ made.reaching
  | .requestResolv | .requestConnecting => made.reaching
  | .requestWrite => made.writes ∨ ∃ record, made = .loggerAccess record
  | .copy => made.reads ∨ made.writes ∨ made.relays
  | .done | .errorState => False

def Makes (kind : Call → Prop) (before after : Ctx) : Prop :=
  ∃ more, after.calls = before.calls ++ more ∧ ∀ made ∈ more, kind made

namespace Makes

variable {kind : Call → Prop} {before after : Ctx}

theorem none (calls : after.calls = before.calls) : Makes kind before after :=
  ⟨[], by rw [calls, List.append_nil], by simp⟩

theorem one {made : Call} (calls : after.calls = before.calls ++ [made])
    (valid : kind made) : Makes kind before after := by
  refine ⟨[made], calls, ?_⟩
  intro other member
  exact List.mem_singleton.mp member ▸ valid

theorem trans {last : Ctx} (left : Makes kind before after)
    (right : Makes kind after last) : Makes kind before last := by
  obtain ⟨earlier, first, validFirst⟩ := left
  obtain ⟨later, second, validSecond⟩ := right
  refine ⟨earlier ++ later, ?_, ?_⟩
  · rw [second, first, List.append_assoc]
  · intro made member
    rcases List.mem_append.mp member with early | late
    · exact validFirst made early
    · exact validSecond made late

theorem mono {other : Call → Prop} (makes : Makes kind before after)
    (within : ∀ made, kind made → other made) : Makes other before after := by
  obtain ⟨more, calls, valid⟩ := makes
  exact ⟨more, calls, fun made member => within made (valid made member)⟩

end Makes

theorem Reaches.makes {before after : Ctx} (reaches : Reaches before after) :
    Makes Call.reaching before after := reaches.calls

section Shapes

variable {Parser : Type} {feed : Parser → UInt8 → Parser}
  {finished : Parser → Bool} {parser : Parser}
  {store : Ctx → Parser → Buffer → Ctx} {self : SocksState}
  {complete : Ctx → Ctx × SocksState} {c : Ctx} {result : Ctx × SocksState}
  {kind : Call → Prop}

theorem readEffect_makes (reads : ∀ made : Call, made.reads → kind made)
    (stores : ∀ c q buffer, Makes kind c (store c q buffer))
    (completes : ∀ c, Makes kind c (complete c).1)
    (effect : ReadEffect feed finished parser store self complete c result) :
    Makes kind c result.1 := by
  cases effect with
  | again | failed | closed => exact .one rfl (reads _ trivial)
  | @partly octets =>
      have received : Makes kind c (c.call (.recv c.s.clientFd octets)) :=
        .one rfl (reads _ trivial)
      exact received.trans (stores _ _ _)
  | @completed octets =>
      have received : Makes kind c (c.call (.recv c.s.clientFd octets)) :=
        .one rfl (reads _ trivial)
      exact (received.trans (stores _ _ _)).trans (completes _)

theorem writeEffect_makes (writes : ∀ made : Call, made.writes → kind made)
    (completes : ∀ c, Makes kind c (complete c).1)
    (effect : WriteEffect self complete c result) : Makes kind c result.1 := by
  cases effect with
  | again | failed | partly => exact .one rfl (writes _ trivial)
  | flushed =>
      exact Makes.trans
        (.one rfl (writes (.send c.s.clientFd c.s.writeBuffer.content) trivial))
        (completes _)

end Shapes

private abbrev copying : Call → Prop := SocksState.copy.mayCall

theorem copyPump_makes (dst : Fd) (sends : List SendAnswer) (b : Buffer) :
    ∀ made ∈ (copyPump dst sends b).2.1, made.writes := by
  induction sends generalizing b with
  | nil =>
      unfold copyPump
      split <;> simp [Call.writes]
  | cons answer sends induction =>
      cases answer with
      | error e =>
          unfold copyPump
          split <;> simp [Call.writes]
      | accept count =>
          unfold copyPump
          dsimp only
          split
          · split
            · intro made member
              rcases List.mem_cons.mp member with rfl | later
              · trivial
              · exact induction _ made later
            · simp [Call.writes]
          · simp

theorem pumpToOrigin_makes (a : Answers) (c : Ctx) :
    Makes Call.writes c (pumpToOrigin a c).1 := ⟨_, rfl, copyPump_makes _ _ _⟩

theorem pumpToClient_makes (a : Answers) (c : Ctx) :
    Makes Call.writes c (pumpToClient a c).1 := ⟨_, rfl, copyPump_makes _ _ _⟩

theorem copyUpdate_makes (c : Ctx) : Makes Call.relays c (copyUpdate c).1 := by
  have origin : Makes Call.relays c (shutOriginWrite c) := by
    unfold shutOriginWrite
    split
    · exact .one rfl trivial
    · exact .none rfl
  have client : Makes Call.relays (shutOriginWrite c)
      (shutClientWrite (shutOriginWrite c)) := by
    unfold shutClientWrite
    split
    · exact .one rfl trivial
    · exact .none rfl
  unfold copyUpdate
  dsimp only
  split
  · exact origin.trans client
  · exact (origin.trans client).trans (.none (copyComputeInterests_calls _))

theorem pumpThenUpdate_makes (pumped : Ctx × Bool) :
    Makes Call.relays pumped.1 (pumpThenUpdate pumped).1 := by
  unfold pumpThenUpdate
  split
  · exact .none rfl
  · exact copyUpdate_makes pumped.1

theorem sniff_makes (c : Ctx) (octets : List UInt8) :
    Makes Call.relays c (sniff c octets) := by
  refine ⟨_, rfl, ?_⟩
  intro made member
  rcases List.mem_cons.mp member with rfl | reported
  · trivial
  · obtain ⟨_, _, rfl⟩ := List.mem_map.mp reported
    trivial

theorem storeFromClient_makes (c : Ctx) (octets : List UInt8) :
    Makes Call.relays c (storeFromClient c octets) := by
  unfold storeFromClient
  dsimp only
  split
  · exact .trans (.none rfl) (sniff_makes _ octets)
  · exact .none rfl

theorem relayEffect_makes {source : Fd} {buffer : Buffer} {ended : Ctx → Ctx}
    {store : Ctx → List UInt8 → Ctx} {pump : Ctx → Ctx × Bool} {c : Ctx}
    {result : Ctx × SocksState} (ends : ∀ c, (ended c).calls = c.calls)
    (stores : ∀ c octets, Makes Call.relays c (store c octets))
    (pumps : ∀ c, Makes Call.writes c (pump c).1)
    (effect : RelayEffect source buffer ended store pump c result) :
    Makes copying c result.1 := by
  have relays (c : Ctx) : Makes copying c (copyUpdate c).1 :=
    (copyUpdate_makes c).mono fun _ relays => .inr (.inr relays)
  have received (octets : List UInt8) :
      Makes copying c (c.call (.recv source octets)) := .one rfl (.inl trivial)
  have blocked (e : Errno) : Makes copying c (c.call (.recvFailed source e)) :=
    .one rfl (.inl trivial)
  cases effect with
  | full => exact relays c
  | again e => exact (blocked e).trans (relays _)
  | failed e => exact ((blocked e).trans (.none (ends _))).trans (relays _)
  | closed => exact ((received []).trans (.none (ends _))).trans (relays _)
  | @relayed octets some fits =>
      have stored := (received octets).trans
        ((stores _ octets).mono fun _ relays => .inr (.inr relays))
      have pumped :=
        stored.trans ((pumps _).mono fun _ writes => .inr (.inl writes))
      exact pumped.trans
        ((pumpThenUpdate_makes _).mono fun _ relays => .inr (.inr relays))

theorem handler_makes {kind : EventKind} {key : Key} {a : Answers} {c : Ctx}
    {st : SocksState} {handler : Handler} {result : Ctx × SocksState}
    (serves : Serves st kind handler) (ran : handler key a c = some result) :
    Makes st.mayCall c result.1 := by
  cases serves with
  | helloRead =>
      have ran := eq_of_total ran
      subst ran
      refine readEffect_makes (fun _ => .inl) ?_ ?_ (helloRead_effect key a c)
      · exact fun _ _ _ => .none rfl
      intro c
      unfold helloCompleted
      dsimp only
      split
      · exact .none rfl
      · exact .one (setInterestOrFail_calls ..) (.inr trivial)
  | helloWrite =>
      have ran := eq_of_total ran
      subst ran
      refine writeEffect_makes (fun _ => id) ?_ (helloWrite_effect key a c)
      intro c
      split
      · exact .none rfl
      · exact .none (setInterestOrFail_calls ..)
  | authRead =>
      have ran := eq_of_total ran
      subst ran
      refine readEffect_makes (fun _ => .inl) ?_ ?_ (authRead_effect key a c)
      · exact fun _ _ _ => .none rfl
      intro c
      unfold authCompleted
      dsimp only
      split
      · exact .none rfl
      · exact .one (setInterestOrFail_calls ..) (.inr trivial)
  | authWrite =>
      have ran := eq_of_total ran
      subst ran
      refine writeEffect_makes (fun _ => id) ?_ (authWrite_effect key a c)
      intro c
      split
      · exact .none rfl
      · exact .none (setInterestOrFail_calls ..)
  | requestRead =>
      have ran := eq_of_total ran
      subst ran
      refine readEffect_makes (fun _ => .inl) ?_ ?_ (requestRead_effect key a c)
      · exact fun _ _ _ => .one rfl (.inr (.inl rfl))
      intro c
      exact (requestCompleted_reaches key a c).1.makes.mono
        fun _ reaching => .inr (.inr reaching)
  | resolvBlock =>
      have ran := eq_of_total ran
      subst ran
      exact (resolvBlock_reaches key a c).1.makes
  | connectingWrite => exact (connectingWrite_reaches ran).1.makes
  | requestWrite =>
      have ran := eq_of_total ran
      subst ran
      refine writeEffect_makes (fun _ => .inl) ?_ (requestWrite_effect key a c)
      intro c
      unfold replySent
      dsimp only
      split <;> exact .one rfl (.inr ⟨_, rfl⟩)
  | copyRead =>
      have ran := eq_of_total ran
      subst ran
      unfold copyRead
      split
      · refine relayEffect_makes ?_ storeFromClient_makes (pumpToOrigin_makes a)
          (copyReadClient_effect a c)
        exact fun _ => rfl
      · refine relayEffect_makes ?_ ?_ (pumpToClient_makes a)
          (copyReadOrigin_effect a c)
        · exact fun _ => rfl
        · exact fun _ _ => .none rfl
  | copyWrite =>
      have ran := eq_of_total ran
      subst ran
      unfold copyWrite
      split
      · exact ((pumpToClient_makes a c).mono fun _ writes =>
          .inr (.inl writes)).trans
          ((pumpThenUpdate_makes _).mono fun _ relays => .inr (.inr relays))
      · exact ((pumpToOrigin_makes a c).mono fun _ writes =>
          .inr (.inl writes)).trans
          ((pumpThenUpdate_makes _).mono fun _ relays => .inr (.inr relays))

section Fields

variable {Field : Type} {field : Socks5 → Field}

theorem readEffect_field {Parser : Type} {feed : Parser → UInt8 → Parser}
    {finished : Parser → Bool} {parser : Parser}
    {store : Ctx → Parser → Buffer → Ctx} {self : SocksState}
    {complete : Ctx → Ctx × SocksState} {c : Ctx} {result : Ctx × SocksState}
    (stores : ∀ c q buffer, field (store c q buffer).s = field c.s)
    (completes : ∀ c, field (complete c).1.s = field c.s)
    (effect : ReadEffect feed finished parser store self complete c result) :
    field result.1.s = field c.s := by
  cases effect with
  | again | failed | closed => rfl
  | partly => exact stores ..
  | completed => exact (completes _).trans (stores ..)

theorem writeEffect_field {self : SocksState}
    {complete : Ctx → Ctx × SocksState} {c : Ctx} {result : Ctx × SocksState}
    (sends : ∀ s buffer, field { s with writeBuffer := buffer } = field s)
    (completes : ∀ c, field (complete c).1.s = field c.s)
    (effect : WriteEffect self complete c result) :
        field result.1.s = field c.s := by
  cases effect with
  | again | failed => rfl
  | partly => exact sends ..
  | flushed => exact (completes _).trans (sends ..)

theorem copyUpdate_field
    (shuts : ∀ s client origin, field { s with
      clientWrShut := client, originWrShut := origin } = field s) (c : Ctx) :
    field (copyUpdate c).1.s = field c.s := by
  have origin : field (shutOriginWrite c).s = field c.s := by
    unfold shutOriginWrite
    split
    · exact shuts c.s c.s.clientWrShut true
    · rfl
  have client : field (shutClientWrite (shutOriginWrite c)).s =
      field (shutOriginWrite c).s := by
    unfold shutClientWrite
    split
    · exact shuts _ true (shutOriginWrite c).s.originWrShut
    · rfl
  unfold copyUpdate
  dsimp only
  split
  · exact client.trans origin
  · rw [copyComputeInterests_s]
    exact client.trans origin

structure RelayField (field : Socks5 → Field) : Prop where
  shuts : ∀ s client origin, field { s with
    clientWrShut := client, originWrShut := origin } = field s
  ends : ∀ s client origin, field { s with
    clientEof := client, originEof := origin } = field s
  buffers : ∀ s left right, field { s with
    readBuffer := left, writeBuffer := right } = field s
  sniffs : ∀ s pop3, field { s with pop3 := pop3 } = field s

theorem relayEffect_field {source : Fd} {buffer : Buffer} {ended : Ctx → Ctx}
    {store : Ctx → List UInt8 → Ctx} {pump : Ctx → Ctx × Bool} {c : Ctx}
    {result : Ctx × SocksState} (relay : RelayField field)
    (ends : ∀ c, field (ended c).s = field c.s)
    (stores : ∀ c octets, field (store c octets).s = field c.s)
    (pumps : ∀ c, field (pump c).1.s = field c.s)
    (effect : RelayEffect source buffer ended store pump c result) :
    field result.1.s = field c.s := by
  cases effect with
  | full => exact copyUpdate_field relay.shuts c
  | again => exact copyUpdate_field relay.shuts _
  | failed => exact (copyUpdate_field relay.shuts _).trans (ends _)
  | closed => exact (copyUpdate_field relay.shuts _).trans (ends _)
  | @relayed octets =>
      refine Eq.trans ?_
        ((pumps _).trans (stores (c.call (.recv source octets)) octets))
      unfold pumpThenUpdate
      split
      · rfl
      · exact copyUpdate_field relay.shuts _

theorem copy_field {kind : EventKind} {key : Key} {a : Answers} {c : Ctx}
    {handler : Handler} {result : Ctx × SocksState} (relay : RelayField field)
    (serves : Serves .copy kind handler) (ran : handler key a c = some result) :
    field result.1.s = field c.s := by
  have toOrigin (c : Ctx) : field (pumpToOrigin a c).1.s = field c.s :=
    relay.buffers c.s _ c.s.writeBuffer
  have toClient (c : Ctx) : field (pumpToClient a c).1.s = field c.s :=
    relay.buffers c.s c.s.readBuffer _
  have updates (pumped : Ctx × Bool) :
      field (pumpThenUpdate pumped).1.s = field pumped.1.s := by
    unfold pumpThenUpdate
    split
    · rfl
    · exact copyUpdate_field relay.shuts _
  cases serves with
  | copyRead =>
      have ran := eq_of_total ran
      subst ran
      unfold copyRead
      split
      · refine relayEffect_field relay ?_ ?_ toOrigin
          (copyReadClient_effect a c)
        · exact fun c => relay.ends c.s true c.s.originEof
        · intro c octets
          have filled := relay.buffers c.s (bufferFill c.s.readBuffer octets)
            c.s.writeBuffer
          unfold storeFromClient
          dsimp only
          split
          · exact (relay.sniffs _ _).trans filled
          · exact filled
      · refine relayEffect_field relay ?_ ?_ toClient
          (copyReadOrigin_effect a c)
        · exact fun c => relay.ends c.s c.s.clientEof true
        · exact fun c octets => relay.buffers c.s c.s.readBuffer _
  | copyWrite =>
      have ran := eq_of_total ran
      subst ran
      unfold copyWrite
      split
      · exact (updates _).trans (toClient c)
      · exact (updates _).trans (toOrigin c)

structure HandshakeField (field : Socks5 → Field) : Prop where
  reads : ∀ s hello auth request buffer, field { s with
    hello := hello, auth := auth, request := request, readBuffer := buffer } =
      field s
  writes : ∀ s method authOk username buffer, field { s with
    method := method, authOk := authOk, username := username,
    writeBuffer := buffer } = field s
  reaches :
    ∀ s originFd addrs addrIdx dns resolving destHost destPort reply references,
    field { s with
      originFd := originFd
      addrs := addrs
      addrIdx := addrIdx
      dns := dns
      resolving := resolving
      destHost := destHost
      destPort := destPort
      reply := reply
      references := references } = field s

theorem Reaches.keeps {before after : Ctx} (reaches : Reaches before after)
    (handshake : HandshakeField field) : field after.s = field before.s := by
  obtain ⟨_, _, _, _, _, _, _, _, _, object⟩ := reaches.object
  rw [object]
  exact handshake.reaches ..

theorem handshake_field {kind : EventKind} {key : Key} {a : Answers} {c : Ctx}
    {st : SocksState} {handler : Handler} {result : Ctx × SocksState}
    (handshake : HandshakeField field) (elsewhere : st ≠ .copy)
    (serves : Serves st kind handler) (ran : handler key a c = some result) :
    field result.1.s = field c.s := by
  have sends (s : Socks5) (buffer : Buffer) :
      field { s with writeBuffer := buffer } = field s :=
    handshake.writes s s.method s.authOk s.username buffer
  cases serves with
  | helloRead =>
      have ran := eq_of_total ran
      subst ran
      refine readEffect_field ?_ ?_ (helloRead_effect key a c)
      · exact fun c hello buffer =>
          handshake.reads c.s hello c.s.auth c.s.request buffer
      intro c
      unfold helloCompleted
      dsimp only
      split
      · rfl
      · rw [setInterestOrFail_s]
        exact handshake.writes c.s _ c.s.authOk c.s.username _
  | helloWrite =>
      have ran := eq_of_total ran
      subst ran
      refine writeEffect_field sends ?_ (helloWrite_effect key a c)
      intro c
      split
      · rfl
      · rw [setInterestOrFail_s]
  | authRead =>
      have ran := eq_of_total ran
      subst ran
      refine readEffect_field ?_ ?_ (authRead_effect key a c)
      · exact fun c auth buffer =>
          handshake.reads c.s c.s.hello auth c.s.request buffer
      intro c
      unfold authCompleted
      dsimp only
      split
      · rfl
      · rw [setInterestOrFail_s]
        exact handshake.writes c.s c.s.method _ _ _
  | authWrite =>
      have ran := eq_of_total ran
      subst ran
      refine writeEffect_field sends ?_ (authWrite_effect key a c)
      intro c
      split
      · rfl
      · rw [setInterestOrFail_s]
  | requestRead =>
      have ran := eq_of_total ran
      subst ran
      refine readEffect_field ?_ ?_ (requestRead_effect key a c)
      · exact fun c request buffer =>
          handshake.reads c.s c.s.hello c.s.auth request buffer
      intro c
      exact (requestCompleted_reaches key a c).1.keeps handshake
  | resolvBlock =>
      have ran := eq_of_total ran
      subst ran
      exact (resolvBlock_reaches key a c).1.keeps handshake
  | connectingWrite => exact (connectingWrite_reaches ran).1.keeps handshake
  | requestWrite =>
      have ran := eq_of_total ran
      subst ran
      refine writeEffect_field sends ?_ (requestWrite_effect key a c)
      intro c
      unfold replySent
      dsimp only
      split <;> rfl
  | copyRead | copyWrite => exact absurd rfl elsewhere

end Fields

end SocksProxy
