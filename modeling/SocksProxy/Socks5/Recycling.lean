import SocksProxy.Alike
import SocksProxy.Server.Effects
import SocksProxy.Socks5.Connection

/-! What a connection shows does not depend on the object that `socks5_new` took
for it: neither on what a recycled object held before nor on its address. -/

namespace SocksProxy

open Unwinding

/-- Connections that differ at most in the octets that cannot be read from their
buffers, and in the address that the resolver is given. -/
inductive Socks5.Alike (s : Socks5) : Socks5 → Prop
  | intro {rawRead rawWrite : Option Nat} {readBuffer writeBuffer : Buffer}
      {conn : Ptr} (read : s.readBuffer.Alike readBuffer)
      (write : s.writeBuffer.Alike writeBuffer) : Socks5.Alike s
        { s with
          rawRead := rawRead
          rawWrite := rawWrite
          readBuffer := readBuffer
          writeBuffer := writeBuffer
          dns := { s.dns with conn := conn } }

structure Resolver.Alike (p p' : Ptr) (r r' : Resolver) : Prop where
  owned : r'.conn = p' ↔ r.conn = p
  ticket : r'.ticket = r.ticket
  answer : r'.answer = r.answer

inductive Env.Alike (p p' : Ptr) (env : Env) : Env → Prop
  | intro {selector : Selector} {resolvers : List Resolver}
      (selects : env.selector.Alike p p' selector)
      (resolves : List.Forall₂ (Resolver.Alike p p') env.resolvers resolvers) :
      Env.Alike p p' env
      { env with selector := selector, resolvers := resolvers }

inductive Ctx.Alike (p p' : Ptr) : Ctx → Ctx → Prop
  | intro {env env' : Env} {s s' : Socks5} {calls : List Call}
      {destroyed : Bool} (outside : env.Alike p p' env') (object : s.Alike s') :
      Ctx.Alike p p' ⟨env, s, calls, destroyed⟩ ⟨env', s', calls, destroyed⟩

section Handlers

variable {p p' : Ptr} (fd : Fd) {a : Answers} {c c' : Ctx}
  (alike : c.Alike p p' c')

include alike

theorem Ctx.Alike.call (made : Call) :
    (c.call made).Alike p p' (c'.call made) := by
  cases alike with
  | intro outside object => exact .intro outside object

theorem Ctx.Alike.closeFd (fd : Fd) :
    (c.closeFd fd).Alike p p' (c'.closeFd fd) := by
  cases alike with
  | intro outside object =>
      cases outside with
      | intro selects resolves => exact .intro (.intro selects resolves) object

theorem Ctx.Alike.setInterest (fd : Fd) (i : Interest) :
    Agree (Ctx.Alike p p') (c.setInterest fd i) (c'.setInterest fd i) := by
  cases alike with
  | intro outside object =>
      cases outside with
      | intro selects resolves =>
          have set := selects.setInterest fd i
          exact ⟨.intro (.intro set.1 resolves) object, set.2⟩

theorem Ctx.Alike.setReply (reply : UInt8) :
    (c.setReply reply).Alike p p' (c'.setReply reply) := by
  cases alike with
  | intro outside object =>
      cases object with
      | intro read write => exact .intro outside (.intro read write)

theorem Ctx.Alike.clientFd : c'.s.clientFd = c.s.clientFd := by
  obtain ⟨outside, read, write⟩ := alike
  rfl

theorem Ctx.Alike.setClient (i : Interest) :
    ((c.setInterest c.s.clientFd i).1).Alike p p'
      (c'.setInterest c'.s.clientFd i).1 := by
  rw [alike.clientFd]
  exact (alike.setInterest _ i).1

theorem agree_recvClient :
    Agree (Ctx.Alike p p') (recvClient a c) (recvClient a c') := by
  obtain ⟨outside, read, write⟩ := alike
  unfold recvClient Ctx.recv
  dsimp only
  rw [read.space]
  cases a.recv with
  | error e => exact ⟨.intro outside (.intro read write), rfl⟩
  | ready octets =>
      dsimp only [Ctx.call]
      generalize octets.take (Buffer.space _) = taken
      cases taken with
      | nil => exact ⟨.intro outside (.intro read write), rfl⟩
      | cons octet rest =>
          exact ⟨.intro outside (.intro (read.fill _) write), rfl⟩

theorem agree_sendClient :
    Agree (Ctx.Alike p p') (sendClient a c) (sendClient a c') := by
  obtain ⟨outside, read, write⟩ := alike
  unfold sendClient Ctx.send
  dsimp only
  rw [write.content]
  cases a.send with
  | error e => exact ⟨.intro outside (.intro read write), rfl⟩
  | accept count =>
      dsimp only [Ctx.call]
      rw [(write.readAdv _).canRead]
      exact ⟨.intro outside (.intro read (write.readAdv _)), rfl⟩

theorem agree_setInterestOrFail (i : Interest) (next : SocksState) :
    Agree (Ctx.Alike p p') (setInterestOrFail c i next)
      (setInterestOrFail c' i next) := by
  obtain ⟨after, after', status, set, set', alike'⟩ :=
    (alike.setInterest c.s.clientFd i).values
  unfold setInterestOrFail
  rw [alike.clientFd, set, set']
  cases status <;> exact ⟨alike', rfl⟩

theorem agree_helloRead : Agree (Ctx.Alike p p') (helloRead ⟨fd, p⟩ a c)
    (helloRead ⟨fd, p'⟩ a c') := by
  obtain ⟨after, after', step, ran, ran', alike⟩ :=
    (agree_recvClient (a := a) alike).values
  unfold helloRead
  rw [ran, ran']
  cases step with
  | again => exact ⟨alike, rfl⟩
  | failed => exact ⟨alike, rfl⟩
  | received =>
      obtain ⟨outside, read, write⟩ := alike
      obtain ⟨hello, rest, rest', stop, parsed, parsed', left⟩ :=
        agree_parserConsume helloParserFeed HelloParser.finished _ read
      dsimp only [helloParserConsume]
      rw [parsed, parsed']
      dsimp only
      generalize (if stop = true then some (hello.state == .error) else none) =
        finished
      cases finished with
      | none => exact ⟨.intro outside (.intro left write), rfl⟩
      | some error =>
          cases error with
          | true => exact ⟨.intro outside (.intro left write), rfl⟩
          | false =>
              obtain ⟨selects, resolves⟩ := outside
              refine agree_setInterestOrFail ?_ opWrite .helloWrite
              exact .intro (.intro selects resolves)
                (.intro left (write.reset.writeAll _))

theorem agree_helloWrite : Agree (Ctx.Alike p p') (helloWrite ⟨fd, p⟩ a c)
    (helloWrite ⟨fd, p'⟩ a c') := by
  obtain ⟨after, after', step, ran, ran', alike⟩ :=
    (agree_sendClient (a := a) alike).values
  unfold helloWrite
  rw [ran, ran']
  cases step with
  | more => exact ⟨alike, rfl⟩
  | failed => exact ⟨alike, rfl⟩
  | flushed =>
      have method : after'.s.method = after.s.method := by
        obtain ⟨outside, read, write⟩ := alike
        rfl
      dsimp only
      rw [method]
      split
      · exact ⟨alike, rfl⟩
      · exact agree_setInterestOrFail alike _ _

theorem agree_authRead : Agree (Ctx.Alike p p') (authRead ⟨fd, p⟩ a c)
    (authRead ⟨fd, p'⟩ a c') := by
  obtain ⟨after, after', step, ran, ran', alike⟩ :=
    (agree_recvClient (a := a) alike).values
  unfold authRead
  rw [ran, ran']
  cases step with
  | again => exact ⟨alike, rfl⟩
  | failed => exact ⟨alike, rfl⟩
  | received =>
      obtain ⟨outside, read, write⟩ := alike
      obtain ⟨auth, rest, rest', stop, parsed, parsed', left⟩ :=
        agree_parserConsume authParserFeed AuthParser.finished _ read
      dsimp only [authParserConsume]
      rw [parsed, parsed']
      dsimp only
      generalize (if stop = true then some (auth.state == .error) else none) =
        finished
      cases finished with
      | none => exact ⟨.intro outside (.intro left write), rfl⟩
      | some error =>
          cases error with
          | true => exact ⟨.intro outside (.intro left write), rfl⟩
          | false =>
              obtain ⟨selects, resolves⟩ := outside
              refine agree_setInterestOrFail ?_ opWrite .authWrite
              exact .intro (.intro selects resolves)
                (.intro left (write.reset.writeAll _))

theorem agree_authWrite : Agree (Ctx.Alike p p') (authWrite ⟨fd, p⟩ a c)
    (authWrite ⟨fd, p'⟩ a c') := by
  obtain ⟨after, after', step, ran, ran', alike⟩ :=
    (agree_sendClient (a := a) alike).values
  unfold authWrite
  rw [ran, ran']
  cases step with
  | more => exact ⟨alike, rfl⟩
  | failed => exact ⟨alike, rfl⟩
  | flushed =>
      have authOk : after'.s.authOk = after.s.authOk := by
        obtain ⟨outside, read, write⟩ := alike
        rfl
      dsimp only
      rw [authOk]
      split
      · exact ⟨alike, rfl⟩
      · exact agree_setInterestOrFail alike _ _

theorem agree_registerOrigin (origin : Fd) (i : Interest) :
    Agree (Ctx.Alike p p') (registerOrigin ⟨fd, p⟩ c origin i)
      (registerOrigin ⟨fd, p'⟩ c' origin i) := by
  have closed := alike.closeFd origin
  obtain ⟨⟨selects, resolves⟩, read, write⟩ := alike
  obtain ⟨selector, selector', status, set, set', registered⟩ :=
    (selects.register origin i).values
  unfold registerOrigin
  dsimp only
  rw [set, set']
  cases status with
  | success =>
      exact ⟨.intro (.intro registered resolves) (.intro read write), rfl⟩
  | _ => exact ⟨closed, rfl⟩

theorem Ctx.Alike.nextCandidate :
    c.nextCandidate.Alike p p' c'.nextCandidate := by
  obtain ⟨outside, read, write⟩ := alike
  exact .intro outside (.intro read write)

theorem Ctx.Alike.openOrigin : c'.openOrigin.1 = c.openOrigin.1 ∧
    c.openOrigin.2.Alike p p' c'.openOrigin.2 := by
  obtain ⟨⟨selects, resolves⟩, object⟩ := alike
  exact ⟨rfl, .intro (.intro selects resolves) object⟩

theorem Ctx.Alike.connect (origin : Fd) (address : SockAddr) (e : Errno) :
    (c.connect origin address e).Alike p p' (c'.connect origin address e) := by
  obtain ⟨⟨selects, resolves⟩, object⟩ := alike
  exact .intro (.intro selects resolves) object

theorem agree_tryCandidate : Agree (Ctx.Alike p p') (tryCandidate ⟨fd, p⟩ a c)
    (tryCandidate ⟨fd, p'⟩ a c') := by
  obtain ⟨addrs, index⟩ : c'.s.addrs = c.s.addrs ∧
      c'.s.addrIdx = c.s.addrIdx := by
    obtain ⟨outside, read, write⟩ := alike
    exact ⟨rfl, rfl⟩
  obtain ⟨opened, alike'⟩ := alike.openOrigin
  unfold tryCandidate
  rw [addrs, index]
  dsimp only
  split
  · exact ⟨(alike.setReply _).nextCandidate, rfl⟩
  · rw [opened]
    split
    · exact ⟨(alike'.closeFd _).nextCandidate, rfl⟩
    · have connected := alike'.connect c.openOrigin.1
        ((c.s.addrs[c.s.addrIdx]?).getD default) (a.attempt c.s.addrIdx).connect
      split
      · obtain ⟨after, after', registered, ran, ran', alike⟩ :=
          (agree_registerOrigin fd connected c.openOrigin.1 opNoop).values
        rw [ran, ran']
        cases registered with
        | true => exact ⟨alike.setReply _, rfl⟩
        | false => exact ⟨alike.nextCandidate, rfl⟩
      · split
        · obtain ⟨after, after', registered, ran, ran', alike⟩ :=
            (agree_registerOrigin fd connected c.openOrigin.1 opWrite).values
          rw [ran, ran']
          cases registered with
          | true => exact ⟨alike, rfl⟩
          | false => exact ⟨alike.nextCandidate, rfl⟩
        · exact ⟨((connected.setReply _).closeFd _).nextCandidate, rfl⟩

theorem Ctx.Alike.reply : c'.s.reply = c.s.reply := by
  obtain ⟨outside, read, write⟩ := alike
  rfl

theorem agree_tryCandidates (left : Nat) : Agree (Ctx.Alike p p')
    (tryCandidates ⟨fd, p⟩ a left c) (tryCandidates ⟨fd, p'⟩ a left c') := by
  induction left generalizing c c' with
  | zero =>
      unfold tryCandidates
      rw [alike.reply]
      split
      · exact ⟨alike.setReply _, rfl⟩
      · exact ⟨alike, rfl⟩
  | succ left induction =>
      obtain ⟨after, after', next, ran, ran', alike⟩ :=
        (agree_tryCandidate fd (a := a) alike).values
      unfold tryCandidates
      rw [ran, ran']
      cases next with
      | none => exact induction alike
      | some next => exact ⟨alike, rfl⟩

theorem agree_startConnection :
    Agree (Ctx.Alike p p') (startConnection ⟨fd, p⟩ a c)
    (startConnection ⟨fd, p'⟩ a c') := by
  have counted : c'.s.naddrs - c'.s.addrIdx = c.s.naddrs - c.s.addrIdx := by
    obtain ⟨outside, read, write⟩ := alike
    rfl
  unfold startConnection
  rw [counted]
  exact agree_tryCandidates fd (alike.call _) _

theorem agree_processRequest :
    Agree (Ctx.Alike p p') (processRequest ⟨fd, p⟩ a c)
    (processRequest ⟨fd, p'⟩ a c') := by
  have refused (reply : UInt8) :
      Agree (Ctx.Alike p p') (c.setReply reply, SocksState.requestWrite)
        (c'.setReply reply, SocksState.requestWrite) :=
        ⟨alike.setReply reply, rfl⟩
  obtain ⟨outside, read, write⟩ := alike
  unfold processRequest
  dsimp only
  split
  · exact refused _
  · split
    · exact agree_startConnection fd (.intro outside (.intro read write))
    · split
      · exact agree_startConnection fd (.intro outside (.intro read write))
      · split
        · obtain ⟨selects, resolves⟩ := outside
          unfold dnsResolveAsync
          dsimp only [Ctx.call]
          cases a.thread with
          | true =>
              refine ⟨.intro (.intro selects ?_) (.intro read write), rfl⟩
              refine List.rel_append resolves (.cons ⟨?_, rfl, rfl⟩ .nil)
              exact ⟨fun _ => rfl, fun _ => rfl⟩
          | false =>
              exact ⟨.intro (.intro selects resolves) (.intro read write), rfl⟩
        · exact ⟨.intro outside (.intro read write), rfl⟩

theorem agree_requestRead : Agree (Ctx.Alike p p') (requestRead ⟨fd, p⟩ a c)
    (requestRead ⟨fd, p'⟩ a c') := by
  obtain ⟨after, after', step, ran, ran', alike⟩ :=
    (agree_recvClient (a := a) alike).values
  unfold requestRead
  rw [ran, ran']
  cases step with
  | again => exact ⟨alike, rfl⟩
  | failed => exact ⟨alike, rfl⟩
  | received =>
      obtain ⟨outside, read, write⟩ := alike
      obtain ⟨request, rest, rest', stop, parsed, parsed', left⟩ :=
        agree_parserConsume requestParserFeed RequestParser.finished _ read
      dsimp only [requestParserConsume, Ctx.call]
      rw [parsed, parsed']
      dsimp only
      generalize (if stop = true then some (request.state == .error)
        else none) = finished
      cases finished with
      | none => exact ⟨.intro outside (.intro left write), rfl⟩
      | some error =>
          cases error with
          | true =>
              refine ⟨Ctx.Alike.setReply (Ctx.Alike.setInterest ?_ _ opNoop).1
                _, rfl⟩
              exact .intro outside (.intro left write)
          | false =>
              refine agree_processRequest fd
                (Ctx.Alike.setInterest ?_ _ opNoop).1
              exact .intro outside (.intro left write)

theorem alike_resolvArrival :
    (resolvArrival ⟨fd, p⟩ a c).Alike p p' (resolvArrival ⟨fd, p'⟩ a c') := by
  exact alike.setClient opNoop

theorem agree_resolvBlock : Agree (Ctx.Alike p p') (resolvBlock ⟨fd, p⟩ a c)
    (resolvBlock ⟨fd, p'⟩ a c') := by
  cases alike with
  | @intro _ _ s _ _ _ outside object =>
      obtain ⟨read, write⟩ := object
      unfold resolvBlock
      dsimp only
      split
      · exact ⟨.intro outside (.intro read write), rfl⟩
      · change Agree _ (if (candidates s.dns.result).length = 0 then _ else _)
          (if (candidates s.dns.result).length = 0 then _ else _)
        split
        · exact ⟨.intro outside (.intro read write), rfl⟩
        · exact agree_startConnection fd (.intro outside (.intro read write))

theorem rel_socksv5Close (closed : Fd) :
    Option.Rel (Ctx.Alike p p') (socksv5Close closed c)
      (socksv5Close closed c') := by
  obtain ⟨⟨selects, resolves⟩, read, write⟩ := alike
  unfold socksv5Close
  dsimp only [Ctx.closeFd]
  split
  · exact .none
  · split
    · exact .some (.intro (.intro selects resolves) (.intro read write))
    · exact .some (.intro (.intro selects resolves) (.intro read write))

theorem rel_selectorUnregisterFd (closed : Fd) :
    Option.Rel (Ctx.Alike p p') (selectorUnregisterFd ⟨fd, p⟩ closed c)
      (selectorUnregisterFd ⟨fd, p'⟩ closed c') := by
  have both : Option.Rel (Item.Alike p p') (c.env.selector.items closed)
      (c'.env.selector.items closed) := by
    obtain ⟨⟨selects, resolves⟩, object⟩ := alike
    exact selects.items closed
  unfold selectorUnregisterFd
  split
  · exact .some alike
  · generalize c.env.selector.items closed = item at both ⊢
    generalize c'.env.selector.items closed = item' at both ⊢
    cases both with
    | none => exact .some alike
    | @some item item' same =>
        have owned : (item'.handler = .socks5 ∧ item'.data = p') ↔
            (item.handler = .socks5 ∧ item.data = p) := by
          rw [same.handler]
          exact and_congr_right same.owned
        dsimp only
        simp only [owned]
        split
        · refine rel_map (rel_socksv5Close alike closed)
            fun {first second} alike => ?_
          obtain ⟨⟨selects, resolves⟩, object⟩ := alike
          exact .intro (.intro (selects.remove closed) resolves) object
        · exact .none

theorem rel_connectingWrite : Option.Rel (Agree (Ctx.Alike p p'))
    (connectingWrite ⟨fd, p⟩ a c) (connectingWrite ⟨fd, p'⟩ a c') := by
  obtain ⟨origin, number, kernel⟩ : c'.s.originFd = c.s.originFd ∧
      c'.s.originNumber = c.s.originNumber ∧ c'.env.kernel = c.env.kernel := by
    obtain ⟨⟨selects, resolves⟩, read, write⟩ := alike
    exact ⟨rfl, rfl, rfl⟩
  unfold connectingWrite
  rw [origin, number, kernel]
  dsimp only
  split
  · exact .some ⟨alike.setReply _, rfl⟩
  · refine rel_map (rel_selectorUnregisterFd fd (alike.setReply _) _)
      fun {first second} alike => ?_
    obtain ⟨outside, read, write⟩ := alike
    exact agree_startConnection fd (.intro outside (.intro read write))

theorem Ctx.Alike.buildReply (reply : UInt8) (sockname : Option SockAddr) :
    Ctx.Alike p p' { c with s := SocksProxy.buildReply c.s reply sockname }
      { c' with s := SocksProxy.buildReply c'.s reply sockname } := by
  obtain ⟨outside, read, write⟩ := alike
  exact .intro outside (.intro read (write.reset.writeAll _))

theorem Ctx.Alike.originNumber : c'.s.originNumber = c.s.originNumber := by
  obtain ⟨outside, read, write⟩ := alike
  rfl

theorem Ctx.Alike.readBuffer : c.s.readBuffer.Alike c'.s.readBuffer := by
  obtain ⟨outside, read, write⟩ := alike
  exact read

theorem Ctx.Alike.writeBuffer : c.s.writeBuffer.Alike c'.s.writeBuffer := by
  obtain ⟨outside, read, write⟩ := alike
  exact write

theorem Ctx.Alike.originFd : c'.s.originFd = c.s.originFd := by
  obtain ⟨outside, read, write⟩ := alike
  rfl

theorem Ctx.Alike.setOrigin {i i' : Interest} (same : i' = i) :
    Ctx.Alike p p'
      (match c.s.originFd with
        | some origin => (c.setInterest origin i).1
        | none => c)
      (match c'.s.originFd with
        | some origin => (c'.setInterest origin i').1
        | none => c') := by
  rw [alike.originFd, same]
  cases c.s.originFd with
  | none => exact alike
  | some origin => exact (alike.setInterest origin i).1

theorem alike_requestWriteArrival :
    (requestWriteArrival ⟨fd, p⟩ a c).Alike p p'
      (requestWriteArrival ⟨fd, p'⟩ a c') := by
  unfold requestWriteArrival
  rw [alike.reply]
  exact ((alike.buildReply c.s.reply a.sockname).setOrigin rfl).setClient
    opWrite

theorem agree_requestWrite : Agree (Ctx.Alike p p') (requestWrite ⟨fd, p⟩ a c)
    (requestWrite ⟨fd, p'⟩ a c') := by
  obtain ⟨after, after', step, ran, ran', alike⟩ :=
    (agree_sendClient (a := a) alike).values
  unfold requestWrite
  rw [ran, ran']
  cases step with
  | more => exact ⟨alike, rfl⟩
  | failed => exact ⟨alike, rfl⟩
  | flushed =>
      obtain ⟨⟨selects, resolves⟩, read, write⟩ := alike
      dsimp only [Ctx.call]
      split
      · exact ⟨.intro (.intro selects resolves) (.intro read write), rfl⟩
      · exact ⟨.intro (.intro selects resolves) (.intro read write), rfl⟩

theorem alike_copyComputeInterests :
    (copyComputeInterests c).Alike p p' (copyComputeInterests c') := by
  obtain ⟨client, origin⟩ : clientInterest c'.s = clientInterest c.s ∧
      originInterest c'.s = originInterest c.s := by
    obtain ⟨outside, read, write⟩ := alike
    dsimp only [clientInterest, originInterest]
    rw [read.canRead, read.canWrite, write.canRead, write.canWrite]
    exact ⟨rfl, rfl⟩
  unfold copyComputeInterests
  rw [client]
  exact (alike.setClient (clientInterest c.s)).setOrigin origin

theorem alike_copyArrival : (copyArrival ⟨fd, p⟩ a c).Alike p p'
    (copyArrival ⟨fd, p'⟩ a c') := by
  obtain ⟨⟨selects, resolves⟩, read, write⟩ := alike
  exact alike_copyComputeInterests
    (.intro (.intro selects resolves) (.intro read write))

theorem alike_shutOriginWrite :
    (shutOriginWrite c).Alike p p' (shutOriginWrite c') := by
  obtain ⟨outside, read, write⟩ := alike
  unfold shutOriginWrite
  dsimp only
  rw [read.canRead]
  split
  · exact .intro outside (.intro read write)
  · exact .intro outside (.intro read write)

theorem alike_shutClientWrite :
    (shutClientWrite c).Alike p p' (shutClientWrite c') := by
  obtain ⟨outside, read, write⟩ := alike
  unfold shutClientWrite
  dsimp only
  rw [write.canRead]
  split
  · exact .intro outside (.intro read write)
  · exact .intro outside (.intro read write)

theorem agree_copyUpdate :
    Agree (Ctx.Alike p p') (copyUpdate c) (copyUpdate c') := by
  have alike := alike_shutClientWrite (alike_shutOriginWrite alike)
  have interests := alike_copyComputeInterests alike
  unfold copyUpdate
  generalize shutClientWrite (shutOriginWrite c) = after at alike interests ⊢
  generalize shutClientWrite (shutOriginWrite c') = after' at alike interests ⊢
  obtain ⟨outside, read, write⟩ := alike
  dsimp only
  rw [read.canRead, write.canRead]
  split
  · exact ⟨.intro outside (.intro read write), rfl⟩
  · exact ⟨interests, rfl⟩

omit alike in
theorem agree_copyPump (dst : Fd) (sends : List SendAnswer) {b b' : Buffer}
    (alike : b.Alike b') :
    ∃ rest rest' calls hard, copyPump dst sends b = (rest, calls, hard) ∧
      copyPump dst sends b' = (rest', calls, hard) ∧ rest.Alike rest' := by
  induction sends generalizing b b' with
  | nil =>
      unfold copyPump
      rw [alike.canRead]
      split
      · exact ⟨_, _, _, _, rfl, rfl, alike⟩
      · exact ⟨_, _, _, _, rfl, rfl, alike⟩
  | cons answer sends induction =>
      cases answer with
      | error e =>
          unfold copyPump
          rw [alike.canRead]
          split
          · exact ⟨_, _, _, _, rfl, rfl, alike⟩
          · exact ⟨_, _, _, _, rfl, rfl, alike⟩
      | accept count =>
          unfold copyPump
          rw [alike.canRead, alike.content]
          split
          · dsimp only
            split
            · obtain ⟨rest, rest', calls, hard, ran, ran', left⟩ :=
                induction (alike.readAdv (b.content.take count).length)
              rw [ran, ran']
              exact ⟨_, _, _, _, rfl, rfl, left⟩
            · exact ⟨_, _, _, _, rfl, rfl, alike⟩
          · exact ⟨_, _, _, _, rfl, rfl, alike⟩

theorem agree_pumpToOrigin :
    Agree (Ctx.Alike p p') (pumpToOrigin a c) (pumpToOrigin a c') := by
  obtain ⟨rest, rest', calls, hard, ran, ran', left⟩ :=
    agree_copyPump c.s.originNumber a.sends alike.readBuffer
  unfold pumpToOrigin
  rw [alike.originNumber, ran, ran']
  obtain ⟨outside, read, write⟩ := alike
  exact ⟨.intro outside (.intro left write), rfl⟩

theorem agree_pumpToClient :
    Agree (Ctx.Alike p p') (pumpToClient a c) (pumpToClient a c') := by
  obtain ⟨rest, rest', calls, hard, ran, ran', left⟩ :=
    agree_copyPump c.s.clientFd a.sends alike.writeBuffer
  unfold pumpToClient
  rw [alike.clientFd, ran, ran']
  obtain ⟨outside, read, write⟩ := alike
  exact ⟨.intro outside (.intro read left), rfl⟩

omit alike in
theorem agree_pumpThenUpdate {pumped pumped' : Ctx × Bool}
    (agree : Agree (Ctx.Alike p p') pumped pumped') :
    Agree (Ctx.Alike p p') (pumpThenUpdate pumped)
      (pumpThenUpdate pumped') := by
  obtain ⟨alike, same⟩ := agree
  unfold pumpThenUpdate
  rw [← same]
  split
  · exact ⟨alike, rfl⟩
  · exact agree_copyUpdate alike

theorem alike_sniff (octets : List UInt8) :
    (sniff c octets).Alike p p' (sniff c' octets) := by
  obtain ⟨outside, read, write⟩ := alike
  exact .intro outside (.intro read write)

theorem Ctx.Alike.endClient :
    Ctx.Alike p p' { c with s := { c.s with clientEof := true } }
      { c' with s := { c'.s with clientEof := true } } := by
  obtain ⟨outside, read, write⟩ := alike
  exact .intro outside (.intro read write)

theorem Ctx.Alike.endOrigin :
    Ctx.Alike p p' { c with s := { c.s with originEof := true } }
      { c' with s := { c'.s with originEof := true } } := by
  obtain ⟨outside, read, write⟩ := alike
  exact .intro outside (.intro read write)

theorem alike_storeFromClient (octets : List UInt8) :
    (storeFromClient c octets).Alike p p' (storeFromClient c' octets) := by
  obtain ⟨⟨selects, resolves⟩, read, write⟩ := alike
  have filled := read.fill octets
  unfold storeFromClient
  dsimp only
  split
  · refine alike_sniff ?_ octets
    exact .intro (.intro selects resolves) (.intro filled write)
  · exact .intro (.intro selects resolves) (.intro filled write)

theorem alike_storeFromOrigin (octets : List UInt8) :
    (storeFromOrigin c octets).Alike p p' (storeFromOrigin c' octets) := by
  obtain ⟨⟨selects, resolves⟩, read, write⟩ := alike
  exact .intro (.intro selects resolves) (.intro read (write.fill octets))

theorem agree_copyReadClient :
    Agree (Ctx.Alike p p') (copyReadClient a c) (copyReadClient a c') := by
  unfold copyReadClient
  rw [alike.clientFd, alike.readBuffer.space]
  split
  · unfold Ctx.recv
    cases a.recv with
    | error e =>
        have failed := alike.call (.recvFailed c.s.clientFd e)
        dsimp only
        split
        · exact agree_copyUpdate failed
        · exact agree_copyUpdate failed.endClient
    | ready octets =>
        have taken :=
          alike.call (.recv c.s.clientFd (octets.take c.s.readBuffer.space))
        dsimp only
        generalize octets.take c.s.readBuffer.space = octets at taken ⊢
        cases octets with
        | nil => exact agree_copyUpdate taken.endClient
        | cons octet octets =>
            exact agree_pumpThenUpdate
              (agree_pumpToOrigin
                (alike_storeFromClient taken (octet :: octets)))
  · exact agree_copyUpdate alike

theorem agree_copyReadOrigin :
    Agree (Ctx.Alike p p') (copyReadOrigin a c) (copyReadOrigin a c') := by
  unfold copyReadOrigin
  rw [alike.originNumber, alike.writeBuffer.space]
  split
  · unfold Ctx.recv
    cases a.recv with
    | error e =>
        have failed := alike.call (.recvFailed c.s.originNumber e)
        dsimp only
        split
        · exact agree_copyUpdate failed
        · exact agree_copyUpdate failed.endOrigin
    | ready octets =>
        have taken :=
          alike.call
            (.recv c.s.originNumber (octets.take c.s.writeBuffer.space))
        dsimp only
        generalize octets.take c.s.writeBuffer.space = octets at taken ⊢
        cases octets with
        | nil => exact agree_copyUpdate taken.endOrigin
        | cons octet octets =>
            exact agree_pumpThenUpdate
              (agree_pumpToClient
                (alike_storeFromOrigin taken (octet :: octets)))
  · exact agree_copyUpdate alike

theorem agree_copyRead : Agree (Ctx.Alike p p') (copyRead ⟨fd, p⟩ a c)
    (copyRead ⟨fd, p'⟩ a c') := by
  unfold copyRead
  rw [alike.clientFd]
  split
  · exact agree_copyReadClient alike
  · exact agree_copyReadOrigin alike

theorem agree_copyWrite : Agree (Ctx.Alike p p') (copyWrite ⟨fd, p⟩ a c)
    (copyWrite ⟨fd, p'⟩ a c') := by
  unfold copyWrite
  rw [alike.clientFd]
  split
  · exact agree_pumpThenUpdate (agree_pumpToClient alike)
  · exact agree_pumpThenUpdate (agree_pumpToOrigin alike)

theorem Ctx.Alike.current : c'.s.current = c.s.current := by
  obtain ⟨outside, read, write⟩ := alike
  rfl

theorem alike_enter (next : SocksState) :
    (enter ⟨fd, p⟩ a next c).Alike p p' (enter ⟨fd, p'⟩ a next c') := by
  have entered :
      Ctx.Alike p p' { c with s := { c.s with current := some next } }
      { c' with s := { c'.s with current := some next } } := by
    obtain ⟨outside, read, write⟩ := alike
    exact .intro outside (.intro read write)
  unfold enter
  cases next with
  | requestResolv => exact alike_resolvArrival fd (a := a) entered
  | requestWrite => exact alike_requestWriteArrival fd entered
  | copy => exact alike_copyArrival fd (a := a) entered
  | _ => exact entered

theorem alike_handleFirst :
    (handleFirst ⟨fd, p⟩ a c).Alike p p' (handleFirst ⟨fd, p'⟩ a c') := by
  unfold handleFirst
  rw [alike.current]
  split
  · exact alike_enter fd alike _
  · exact alike

theorem alike_jump (next : SocksState) :
    (jump ⟨fd, p⟩ a next c).Alike p p' (jump ⟨fd, p'⟩ a next c') := by
  unfold jump
  rw [alike.current]
  split
  · exact alike
  · exact alike_enter fd alike _

theorem rel_serves {kind : EventKind} {st : SocksState} {handler : Handler}
    (serves : Serves st kind handler) :
    Option.Rel (Agree (Ctx.Alike p p')) (handler ⟨fd, p⟩ a c)
      (handler ⟨fd, p'⟩ a c') := by
  cases serves with
  | helloRead => exact .some (agree_helloRead fd alike)
  | helloWrite => exact .some (agree_helloWrite fd alike)
  | authRead => exact .some (agree_authRead fd alike)
  | authWrite => exact .some (agree_authWrite fd alike)
  | requestRead => exact .some (agree_requestRead fd alike)
  | resolvBlock => exact .some (agree_resolvBlock fd alike)
  | connectingWrite => exact rel_connectingWrite fd alike
  | requestWrite => exact .some (agree_requestWrite fd alike)
  | copyRead => exact .some (agree_copyRead fd alike)
  | copyWrite => exact .some (agree_copyWrite fd alike)

theorem rel_stmHandler (kind : EventKind) :
    Option.Rel (Agree (Ctx.Alike p p')) (stmHandler kind.ready ⟨fd, p⟩ a c)
      (stmHandler kind.ready ⟨fd, p'⟩ a c') := by
  have first := alike_handleFirst fd (a := a) alike
  have state : (handleFirst ⟨fd, p'⟩ a c').s.state =
      (handleFirst ⟨fd, p⟩ a c).s.state := by
    rw [Socks5.state, Socks5.state, first.current]
  unfold stmHandler
  dsimp only
  rw [state]
  split
  · exact .none
  next handler ready =>
    refine rel_map (rel_serves fd first (serves_of_ready ready)) fun agree => ?_
    obtain ⟨after, after', next, ran, ran', alike⟩ := agree.values
    rw [ran, ran']
    exact ⟨alike_jump fd alike next, rfl⟩

theorem rel_socksv5Done :
    Option.Rel (Ctx.Alike p p') (socksv5Done ⟨fd, p⟩ c)
      (socksv5Done ⟨fd, p'⟩ c') := by
  unfold socksv5Done
  rw [alike.originFd, alike.clientFd]
  refine rel_bind (rel_selectorUnregisterFd fd alike _) fun alike => ?_
  cases c.s.originFd with
  | none => exact .some alike
  | some origin => exact rel_selectorUnregisterFd fd alike origin

theorem rel_socksv5Handler (kind : EventKind) :
    Option.Rel (Ctx.Alike p p') (socksv5Handler kind ⟨fd, p⟩ a c)
      (socksv5Handler kind ⟨fd, p'⟩ a c') := by
  rw [socksv5Handler_eq]
  refine rel_bind (rel_stmHandler fd alike kind) fun agree => ?_
  obtain ⟨after, after', st, ran, ran', alike⟩ := agree.values
  rw [ran, ran']
  dsimp only
  split
  · exact rel_socksv5Done fd alike
  · exact .some alike

end Handlers

inductive LifeInput
  | handler (kind : EventKind) (fd : Fd) (a : Answers) (env : Env)
  | resolved (answer : DnsAnswer)

inductive LifeInput.Alike (p p' : Ptr) : LifeInput → LifeInput → Prop
  | handler (kind : EventKind) (fd : Fd) (a : Answers) {env env' : Env}
      (outside : env.Alike p p' env') :
      LifeInput.Alike p p' (.handler kind fd a env) (.handler kind fd a env')
  | resolved (answer : DnsAnswer) :
      LifeInput.Alike p p' (.resolved answer) (.resolved answer)

/-- What a handler call shows: the calls it made, how it left the connection and
the rest of the server.  Of addresses it shows which are that of the object. -/
structure Effect where
  calls : List Call
  state : SocksState
  authOk : Bool
  destroyed : Bool
  kernel : Kernel
  config : ProxyConfig
  users : UserTable
  metrics : Metrics
  maxFd : Nat
  items : Fd → Option (Interest × FdHandler × Prop)
  resolvers : List (Prop × Nat × Option DnsAnswer)

def Ctx.effect (p : Ptr) (c : Ctx) : Effect where
  calls := c.calls
  state := c.s.state
  authOk := c.s.authOk
  destroyed := c.destroyed
  kernel := c.env.kernel
  config := c.env.config
  users := c.env.users
  metrics := c.env.metrics
  maxFd := c.env.selector.maxFd
  items := fun fd => (c.env.selector.items fd).map fun item =>
    (item.interest, item.handler, item.handler = .socks5 ∧ item.data = p)
  resolvers := c.env.resolvers.map fun r => (r.conn = p, r.ticket, r.answer)

/-- One input of the connection at `p`, which ends when its object is given
back. -/
def lifeStep (p : Ptr) (s : Socks5) :
    LifeInput → Option (Option Effect × Option Socks5)
  | .handler kind fd a env =>
      (socksv5Handler kind ⟨fd, p⟩ a ⟨env, s, [], false⟩).map fun c =>
        (some (c.effect p), if c.destroyed then none else some c.s)
  | .resolved answer =>
      some (none, some
        { s with dns :=
          { s.dns with result := answer.result, status := answer.status } })

/-- The end of `socksv5_passive_accept` for the object. -/
def Socks5.admitted (s : Socks5) (address : SockAddr) : Socks5 :=
  { s with clientAddr := address, references := 1 }

theorem items_shown {p p' : Ptr} {item item' : Option Item}
    (both : Option.Rel (Item.Alike p p') item item') :
    (item.map fun item =>
        (item.interest, item.handler, item.handler = .socks5 ∧ item.data = p)) =
      item'.map fun item =>
        (item.interest, item.handler, item.handler = .socks5 ∧
          item.data = p') := by
  cases both with
  | none => rfl
  | @some item item' same =>
      have owned := propext (and_congr_right same.owned)
      rw [Option.map_some, Option.map_some, same.interest, same.handler, owned]

theorem resolvers_shown {p p' : Ptr} {resolvers resolvers' : List Resolver}
    (same : List.Forall₂ (Resolver.Alike p p') resolvers resolvers') :
    (resolvers.map fun r => (r.conn = p, r.ticket, r.answer)) =
      resolvers'.map fun r => (r.conn = p', r.ticket, r.answer) := by
  induction same with
  | nil => rfl
  | cons alike _ induction =>
      rw [List.map_cons, List.map_cons, induction, propext alike.owned,
        alike.ticket, alike.answer]

theorem Ctx.Alike.effect {p p' : Ptr} {c c' : Ctx} (alike : c.Alike p p' c') :
    c.effect p = c'.effect p' := by
  obtain ⟨⟨selects, resolves⟩, read, write⟩ := alike
  have items (fd : Fd) := items_shown (selects.items fd)
  have resolvers := resolvers_shown resolves
  simp only [Ctx.effect, items, resolvers, selects.maxFd]
  rfl

theorem rel_lifeStep {p p' : Ptr} {s s' : Socks5} {input input' : LifeInput}
    (alike : s.Alike s') (same : input.Alike p p' input') :
    Option.Rel (Matched Socks5.Alike) (lifeStep p s input)
      (lifeStep p' s' input') := by
  cases same with
  | handler kind fd a outside =>
      have start : Ctx.Alike p p' ⟨_, s, [], false⟩ ⟨_, s', [], false⟩ :=
        .intro outside alike
      refine rel_map (rel_socksv5Handler fd start kind) fun alike => ?_
      refine ⟨congrArg some alike.effect, ?_⟩
      obtain ⟨outside, object⟩ := alike
      dsimp only
      split
      · exact .none
      · exact .some object
  | resolved answer =>
      obtain ⟨read, write⟩ := alike
      exact .some ⟨rfl, .some (.intro read write)⟩

theorem alike_of_prepare {config : ProxyConfig} {fd : Fd}
    {blocks blocks' : BlockAnswers} {old old' : Option Socks5} {s s' : Socks5}
    (address : SockAddr) (made : prepare config fd blocks old = some s)
    (made' : prepare config fd blocks' old' = some s') :
    (s.admitted address).Alike (s'.admitted address) := by
  obtain ⟨rawRead, rawWrite, readBlock, writeBlock, rfl⟩ := prepare_eq made
  obtain ⟨rawRead', rawWrite', readBlock', writeBlock', rfl⟩ := prepare_eq made'
  exact .intro (.init ..) (.init ..)

theorem LifeInput.alike_self (p : Ptr) (input : LifeInput) :
    input.Alike p p input := by
  have item (i : Item) : i.Alike p p i := ⟨rfl, rfl, fun _ => Iff.rfl⟩
  have resolver (r : Resolver) : r.Alike p p r := ⟨Iff.rfl, rfl, rfl⟩
  cases input with
  | resolved answer => exact .resolved answer
  | handler kind fd a env =>
      have selector : env.selector.Alike p p env.selector := by
        refine ⟨fun fd => ?_, rfl, rfl, rfl⟩
        cases env.selector.items fd with
        | none => exact .none
        | some i => exact .some (item i)
      exact .handler kind fd a
        (.intro selector (List.forall₂_same.mpr fun r _ => resolver r))

/-- Whatever the pools of two servers hold, and whether `socks5_new` takes an
object from there or a new one: the connections show the same on the same
inputs. -/
theorem recycled_alike {σ σ' τ τ' : Server} {fd : Fd} {acc acc' : AcceptAnswers}
    {p p' : Ptr} (made : σ.socks5New fd acc = some (τ, some p))
    (made' : σ'.socks5New fd acc' = some (τ', some p'))
    (config : σ'.env.config = σ.env.config) :
    ∃ s s', τ.heap p = some s ∧ τ'.heap p' = some s' ∧
      (∀ address inputs inputs',
        List.Forall₂ (LifeInput.Alike p p') inputs inputs' →
        outputs (lifeStep p) (s.admitted address) inputs =
          outputs (lifeStep p') (s'.admitted address) inputs') ∧
      (p = p' → ∀ address inputs,
        outputs (lifeStep p) (s.admitted address) inputs =
          outputs (lifeStep p) (s'.admitted address) inputs) := by
  obtain ⟨old, s, prepared, held⟩ := Server.socks5New_accepted made
  obtain ⟨old', s', prepared', held'⟩ := Server.socks5New_accepted made'
  rw [config] at prepared'
  have related (address : SockAddr) :
      (s.admitted address).Alike (s'.admitted address) :=
    alike_of_prepare address prepared prepared'
  refine ⟨s, s', held, held', fun address inputs inputs' same => ?_, ?_⟩
  · exact outputs_eq (R := Socks5.Alike) (Q :=
      LifeInput.Alike p p') rel_lifeStep (related address) same
  · rintro rfl address inputs
    exact outputs_eq (R := Socks5.Alike) (Q := LifeInput.Alike p p) rel_lifeStep
      (related address) (List.forall₂_same.mpr fun input _ =>
        input.alike_self p)

theorem alike_soleEnv (config : ProxyConfig) (users : UserTable) (fd : Fd)
    (p p' : Ptr) :
    (soleEnv config users fd p).Alike p p' (soleEnv config users fd p') := by
  have empty : selectorNew.Alike p p' selectorNew :=
    ⟨fun _ => .none, rfl, rfl, rfl⟩
  exact .intro (empty.register fd opRead).1 .nil

private def pooledServer (pool : List Ptr) (old : Socks5) : Server where
  env :=
    envInit ⟨Table.empty.insert 5 .accepted, 0⟩ configInitDefaults usersInit
  heap := fun p => if p ∈ pool then some old else none
  pool := pool
  poolSize := pool.length
  mgmtHeap := fun _ => none
  listeners := []
  phase := .idle
  sigcount := 0
  shuttingDown := false
  live := []

/-- An object whose blocks hold octets and a name, and a new one. -/
theorem recycled_alike_sample :
    ∃ s s' : Socks5, s.readBuffer.data 0 = 0x73 ∧ s'.readBuffer.data 0 = 0 ∧
      outputs (lifeStep 3) (s.admitted ⟨.other 0, [], 0⟩)
          [.handler .read 5 (.receiving [0x05, 0x01, 0x00])
            (soleEnv configInitDefaults usersInit 5 3)] =
        outputs (lifeStep 8) (s'.admitted ⟨.other 0, [], 0⟩)
          [.handler .read 5 (.receiving [0x05, 0x01, 0x00])
            (soleEnv configInitDefaults usersInit 5 8)] := by
  let old : Socks5 :=
    { freshConnection configInitDefaults 9 with
      username := .ofString "somebody"
      readBuffer := bufferInit (wantedSize configInitDefaults) fun _ => 0x73 }
  let blocks : BlockAnswers := ⟨some fun _ => 0, some fun _ => 0⟩
  have recycled :
      (pooledServer [3] old).socks5New 5 ⟨none, true, none, blocks⟩ =
        some (_, some 3) := rfl
  have allocated :
      (pooledServer [] old).socks5New 5 ⟨none, true, some 8, blocks⟩ =
        some (_, some 8) := rfl
  obtain ⟨s, s', held, held', same, -⟩ := recycled_alike recycled allocated rfl
  cases held
  cases held'
  refine ⟨_, _, rfl, rfl, same _ _ _ ?_⟩
  exact .cons (.handler _ _ _ (alike_soleEnv ..)) .nil

end SocksProxy
