import SocksProxy.Socks5.Frame

/-! The graph of the states: which state the handlers of a state can return. -/

namespace SocksProxy

def SocksState.successors : SocksState → List SocksState
  | .helloRead => [.helloRead, .helloWrite, .errorState]
  | .helloWrite => [.helloWrite, .authRead, .requestRead, .done, .errorState]
  | .authRead => [.authRead, .authWrite, .errorState]
  | .authWrite => [.authWrite, .requestRead, .done, .errorState]
  | .requestRead =>
      [.requestRead, .requestResolv, .requestConnecting, .requestWrite,
        .errorState]
  | .requestResolv => [.requestConnecting, .requestWrite]
  | .requestConnecting => [.requestConnecting, .requestWrite]
  | .requestWrite => [.requestWrite, .copy, .done, .errorState]
  | .copy => [.copy, .done]
  | .done => []
  | .errorState => []

section Shapes

variable {Parser : Type} {feed : Parser → UInt8 → Parser}
  {finished : Parser → Bool} {parser : Parser}
  {store : Ctx → Parser → Buffer → Ctx} {self : SocksState}
  {complete : Ctx → Ctx × SocksState} {c : Ctx} {result : Ctx × SocksState}
  {states : List SocksState}

theorem readEffect_next (stays : self ∈ states) (fails : .errorState ∈ states)
    (completes : ∀ c, (complete c).2 ∈ states)
    (effect : ReadEffect feed finished parser store self complete c result) :
    result.2 ∈ states := by
  cases effect with
  | again => exact stays
  | failed => exact fails
  | closed => exact fails
  | partly => exact stays
  | completed => exact completes _

theorem writeEffect_next (stays : self ∈ states) (fails : .errorState ∈ states)
    (completes : ∀ c, (complete c).2 ∈ states)
    (effect : WriteEffect self complete c result) : result.2 ∈ states := by
  cases effect with
  | again => exact stays
  | failed => exact fails
  | partly => exact stays
  | flushed => exact completes _

theorem setInterestOrFail_mem {i : Interest} {next : SocksState} (c : Ctx)
    (succeeds : next ∈ states) (fails : .errorState ∈ states) :
    (setInterestOrFail c i next).2 ∈ states := by
  rcases setInterestOrFail_next c i next with same | same
  · rwa [same]
  · rwa [same]

end Shapes

theorem SocksState.connectResult.mem {st : SocksState}
    {states : List SocksState} (result : st.connectResult)
    (writes : .requestWrite ∈ states) (connects : .requestConnecting ∈ states) :
    st ∈ states := by
  rcases result with rfl | rfl
  · exact writes
  · exact connects

theorem processRequest_next (key : Key) (a : Answers) (c : Ctx) :
    (processRequest key a c).2 = .requestResolv ∨
      (processRequest key a c).2.connectResult := by
  have connects (c : Ctx) : (startConnection key a c).2.connectResult :=
    (startConnection_reaches key a c).2
  unfold processRequest
  dsimp only
  split
  · exact .inr (.inl rfl)
  · split
    · exact .inr (connects _)
    · split
      · exact .inr (connects _)
      · split
        · unfold dnsResolveAsync
          cases a.thread with
          | true => exact .inl rfl
          | false => exact .inr (.inl rfl)
        · exact .inr (.inl rfl)

theorem resolvBlock_next (key : Key) (a : Answers) (c : Ctx) :
    (resolvBlock key a c).2.connectResult := by
  unfold resolvBlock
  dsimp only
  split
  · exact .inl rfl
  · split
    · exact .inl rfl
    · exact (startConnection_reaches key a _).2

theorem connectingWrite_next {key : Key} {a : Answers} {c after : Ctx}
    {next : SocksState} (ran : connectingWrite key a c = some (after, next)) :
    next ∈ SocksState.requestConnecting.successors :=
  (connectingWrite_reaches ran).2.mem (by decide) (by decide)

theorem copyUpdate_next (c : Ctx) :
    (copyUpdate c).2 ∈ SocksState.copy.successors := by
  unfold copyUpdate
  dsimp only
  split <;> simp [SocksState.successors]

theorem pumpThenUpdate_next (pumped : Ctx × Bool) :
    (pumpThenUpdate pumped).2 ∈ SocksState.copy.successors := by
  unfold pumpThenUpdate
  split
  · simp [SocksState.successors]
  · exact copyUpdate_next pumped.1

theorem relayEffect_next {source : Fd} {buffer : Buffer} {ended : Ctx → Ctx}
    {store : Ctx → List UInt8 → Ctx} {pump : Ctx → Ctx × Bool} {c : Ctx}
    {result : Ctx × SocksState}
    (effect : RelayEffect source buffer ended store pump c result) :
    result.2 ∈ SocksState.copy.successors := by
  cases effect with
  | full => exact copyUpdate_next _
  | again => exact copyUpdate_next _
  | failed => exact copyUpdate_next _
  | closed => exact copyUpdate_next _
  | relayed => exact pumpThenUpdate_next _

theorem handler_next {kind : EventKind} {key : Key} {a : Answers} {c : Ctx}
    {st : SocksState} {handler : Handler} {result : Ctx × SocksState}
    (serves : Serves st kind handler) (ran : handler key a c = some result) :
    result.2 ∈ st.successors := by
  cases serves with
  | helloRead =>
      refine eq_of_total ran ▸ readEffect_next (by decide) (by decide) ?_
        (helloRead_effect key a c)
      intro c
      unfold helloCompleted
      split
      · simp [SocksState.successors]
      · exact setInterestOrFail_mem _ (by decide) (by decide)
  | helloWrite =>
      refine eq_of_total ran ▸ writeEffect_next (by decide) (by decide) ?_
        (helloWrite_effect key a c)
      intro c
      split
      · simp [SocksState.successors]
      · refine setInterestOrFail_mem _ ?_ (by decide)
        split <;> simp [SocksState.successors]
  | authRead =>
      refine eq_of_total ran ▸ readEffect_next (by decide) (by decide) ?_
        (authRead_effect key a c)
      intro c
      unfold authCompleted
      split
      · simp [SocksState.successors]
      · exact setInterestOrFail_mem _ (by decide) (by decide)
  | authWrite =>
      refine eq_of_total ran ▸ writeEffect_next (by decide) (by decide) ?_
        (authWrite_effect key a c)
      intro c
      split
      · simp [SocksState.successors]
      · exact setInterestOrFail_mem _ (by decide) (by decide)
  | requestRead =>
      refine eq_of_total ran ▸ readEffect_next (by decide) (by decide) ?_
        (requestRead_effect key a c)
      intro c
      unfold requestCompleted
      dsimp only
      split
      · simp [SocksState.successors]
      · rcases processRequest_next key a _ with resolving | result
        · rw [resolving]
          decide
        · exact result.mem (by decide) (by decide)
  | resolvBlock =>
      exact eq_of_total ran ▸ (resolvBlock_next key a c).mem
        (by decide) (by decide)
  | connectingWrite => exact connectingWrite_next ran
  | requestWrite =>
      refine eq_of_total ran ▸ writeEffect_next (by decide) (by decide) ?_
        (requestWrite_effect key a c)
      intro c
      unfold replySent
      dsimp only
      split <;> simp [SocksState.successors]
  | copyRead =>
      have ran := eq_of_total ran
      subst ran
      unfold copyRead
      split
      · exact relayEffect_next (copyReadClient_effect a c)
      · exact relayEffect_next (copyReadOrigin_effect a c)
  | copyWrite =>
      have ran := eq_of_total ran
      subst ran
      unfold copyWrite
      split <;> exact pumpThenUpdate_next _

/-- What `request_write` logs of a connection. -/
def Socks5.accessRecord (s : Socks5) : AccessRecord where
  user := logUser s
  cmd := .ofString "CONNECT"
  origin := originString s
  dest := destString s
  status := s.reply

end SocksProxy
