import SocksProxy.Mgmt.Codec
import SocksProxy.Mgmt.Handlers

/-! The responses of `mgmt.c` as octet strings, and what the client reads in
them. -/

namespace SocksProxy

structure Records where
  users : UserTable
  metrics : Metrics
  config : ProxyConfig

def Env.records (env : Env) : Records := ⟨env.users, env.metrics, env.config⟩

inductive Records.Reachable : Records → Prop
  | start (config : ProxyConfig)
      (size : config.ioBufferSize = configInitDefaults.ioBufferSize)
      (timeout : config.connTimeoutSecs = configInitDefaults.connTimeoutSecs) :
      Reachable ⟨usersInit, metricsInit, config⟩
  | option {records : Records} (reached : Reachable records)
      (name pass : Option CString) :
      Reachable { records with users := (usersAdd records.users name pass).1 }
  | counted {records : Records} {metrics : Metrics}
      (reached : Reachable records)
      (counted : records.metrics.Counted metrics) :
      Reachable { records with metrics := metrics }
  | requested {env : Env} (reached : Reachable env.records) (b : Buffer)
      (r : SmpRequest) :
      Reachable (processMgmtRequest env b r.parsed).1.records

structure Records.Bounded (records : Records) : Prop where
  unique : records.users.UniqueNames
  sized : records.users.Sized
  fits : records.metrics.Fits
  least : configMinBuffer ≤ records.config.ioBufferSize
  most : records.config.ioBufferSize ≤ configMaxBuffer
  timeout : records.config.connTimeoutSecs < 2 ^ 32

theorem u32At_lt (p : List UInt8) (i : Nat) : u32At p i < 2 ^ 32 := by
  have first := (octetAt p i).toNat_lt
  have second := (octetAt p (i + 1)).toNat_lt
  have third := (octetAt p (i + 2)).toNat_lt
  have fourth := (octetAt p (i + 3)).toNat_lt
  unfold u32At
  omega

theorem SmpRequest.parsed_u32_lt (r : SmpRequest) : r.parsed.u32 < 2 ^ 32 := by
  cases r with
  | setConfig key value sized =>
      simp only [SmpRequest.parsed]
      split
      · exact Nat.two_pow_pos 32
      · exact u32At_lt value 0
  | _ => exact Nat.two_pow_pos 32

private theorem bounded_setConfig {records : Records}
    (bounded : records.Bounded) {r : MgmtReq} (small : r.u32 < 2 ^ 32) :
    Records.Bounded
      { records with config := (setConfig records.config r).1 } := by
  obtain ⟨unique, sized, fits, least, most, timeout⟩ := bounded
  have range : configMinBuffer ≤ configMaxBuffer := by decide
  unfold setConfig
  split
  · refine ⟨unique, sized, fits, ?_, ?_, timeout⟩
    · dsimp only
      split <;> split <;> omega
    · dsimp only
      split <;> split <;> omega
  · split
    · exact ⟨unique, sized, fits, least, most, small⟩
    · split
      · exact ⟨unique, sized, fits, least, most, timeout⟩
      · exact ⟨unique, sized, fits, least, most, timeout⟩

private theorem bounded_request {env : Env} (bounded : env.records.Bounded)
    (b : Buffer) {r : MgmtReq} (small : r.u32 < 2 ^ 32) :
    (processMgmtRequest env b r).1.records.Bounded := by
  have changed := bounded_setConfig bounded small
  obtain ⟨unique, sized, fits, least, most, timeout⟩ := bounded
  unfold processMgmtRequest
  split
  · exact ⟨unique, sized, fits, least, most, timeout⟩
  · split
    · exact ⟨unique, sized, fits, least, most, timeout⟩
    · split
      · exact ⟨unique, sized, fits, least, most, timeout⟩
      · split
        · exact ⟨UserTable.uniqueNames_add unique _ _,
            UserTable.sized_add sized _ _, fits, least, most, timeout⟩
        · split
          · exact ⟨UserTable.uniqueNames_del unique _,
              UserTable.sized_del sized _, fits, least, most, timeout⟩
          · split
            · exact changed
            · exact ⟨unique, sized, fits, least, most, timeout⟩

theorem Records.Reachable.bounded {records : Records}
    (reached : records.Reachable) :
    records.Bounded := by
  induction reached with
  | start config size timeout =>
      refine ⟨UserTable.uniqueNames_init, UserTable.sized_init,
        metricsInit_fits, ?_, ?_, ?_⟩
      · rw [size]
        decide
      · rw [size]
        decide
      · rw [timeout]
        decide
  | option _ name pass bounded =>
      obtain ⟨unique, sized, fits, least, most, timeout⟩ := bounded
      exact ⟨UserTable.uniqueNames_add unique name pass,
        UserTable.sized_add sized name pass, fits, least, most, timeout⟩
  | counted _ counted bounded =>
      obtain ⟨unique, sized, fits, least, most, timeout⟩ := bounded
      exact ⟨unique, sized, fits.counted counted, least, most, timeout⟩
  | requested _ b r bounded => exact bounded_request bounded b r.parsed_u32_lt

def headerOctets (cmd status : UInt8) (datalen : Nat) : List UInt8 :=
  [smpVersion, cmd, status, (datalen / 256).toUInt8, datalen.toUInt8]

def u64Octets (v : Nat) : List UInt8 :=
  [7, 6, 5, 4, 3, 2, 1, 0].map fun i => (v / 2 ^ (i * 8)).toUInt8

def nameOctets (name : CString) : List UInt8 :=
  name.strlen.toUInt8 :: name.octets

theorem writeAll_append (b : Buffer) (left right : List UInt8) :
    bufferWriteAll (bufferWriteAll b left) right =
      bufferWriteAll b (left ++ right) := by
  simp [bufferWriteAll, List.foldl_append]

theorem writeAll_flatMap {α : Type} (f : α → List UInt8) (items : List α)
    (b : Buffer) :
    items.foldl (fun b item => bufferWriteAll b (f item)) b =
      bufferWriteAll b (items.flatMap f) := by
  induction items generalizing b with
  | nil => rfl
  | cons item items induction =>
      rw [List.foldl_cons, induction, List.flatMap_cons, writeAll_append]

theorem respHeader_eq (b : Buffer) (cmd status : UInt8) (datalen : Nat) :
    respHeader b cmd status datalen =
      bufferWriteAll b (headerOctets cmd status datalen) := by
  unfold respHeader putU16
  exact writeAll_append ..

/-- The response to a request, for every buffer that it is written into. -/
def Responds (env : Env) (r : SmpRequest) (status : UInt8) (data : List UInt8) :
    Prop :=
  ∀ b, (processMgmtRequest env b r.parsed).2 =
    bufferWriteAll b (headerOctets r.parsed.cmd status data.length ++ data)

def Env.counters (env : Env) : List Nat :=
  [env.metrics.historicConnections, env.metrics.currentConnections,
    metricsBytesTransferred env.metrics, env.metrics.failedConnections,
    usersCount env.users, env.metrics.bytesSent, env.metrics.bytesReceived]

private theorem processMgmtRequest_metrics (env : Env) (b : Buffer) :
    processMgmtRequest env b SmpRequest.metrics.parsed =
      (env, respMetrics env b) := by
  have asked : SmpRequest.metrics.parsed.cmd = smpCmdMetrics := rfl
  rw [processMgmtRequest, if_pos asked]

private theorem processMgmtRequest_getConfig (env : Env) (b : Buffer) :
    processMgmtRequest env b SmpRequest.getConfig.parsed =
      (env, respGetConfig env b) := by
  have asked : SmpRequest.getConfig.parsed.cmd = smpCmdGetConfig := rfl
  rw [processMgmtRequest, if_neg (by decide), if_pos asked]

private theorem processMgmtRequest_listUsers (env : Env) (b : Buffer) :
    processMgmtRequest env b SmpRequest.listUsers.parsed =
      (env, respListUsers env b) := by
  have asked : SmpRequest.listUsers.parsed.cmd = smpCmdListUsers := rfl
  rw [processMgmtRequest, if_neg (by decide), if_neg (by decide), if_pos asked]

theorem length_counters (env : Env) :
    (env.counters.flatMap u64Octets).length = 56 :=
  rfl

theorem responds_metrics (env : Env) :
    Responds env .metrics smpOk (env.counters.flatMap u64Octets) := by
  intro b
  have number : putU64 = fun b v => bufferWriteAll b (u64Octets v) := rfl
  have written : respMetrics env b =
      env.counters.foldl putU64 (respHeader b smpCmdMetrics smpOk 56) := by
    simp only [respMetrics, Env.counters]
  have cmd : SmpRequest.metrics.parsed.cmd = smpCmdMetrics := rfl
  rw [processMgmtRequest_metrics, length_counters, cmd, ← writeAll_append,
    ← writeAll_flatMap, ← respHeader_eq]
  rw [number] at written
  dsimp only
  exact written

theorem responds_getConfig (env : Env) :
    Responds env .getConfig smpOk
      (u32Octets env.config.ioBufferSize ++
        (u32Octets env.config.connTimeoutSecs ++
        [if env.config.authRequired then 1 else 0])) := by
  intro b
  have flag (b : Buffer) (octet : UInt8) :
      bufferWrite b octet = bufferWriteAll b [octet] := rfl
  have number (b : Buffer) (v : Nat) :
      putU32 b v = bufferWriteAll b (u32Octets v) := rfl
  rw [processMgmtRequest_getConfig]
  simp only [respGetConfig, respHeader_eq, flag, number, writeAll_append,
    List.append_assoc]
  rfl

theorem registeredNames_eq (db : UserTable) :
    registeredNames db = db.names := by
  unfold registeredNames
  rw [UserTable.usersCount_eq]
  refine List.ext_getElem (by simp) ?_
  intro i within _
  have bound : i < db.names.length := by simpa using within
  simp [UserTable.usersNameAt_eq, List.getElem?_eq_getElem bound]

private theorem sum_names {names : List CString}
    (sized : ∀ name ∈ names, name.strlen ≤ usersMaxName) :
    (names.flatMap nameOctets).length ≤ names.length * 256 := by
  induction names with
  | nil => simp
  | cons name names induction =>
      have rest := induction fun other member =>
        sized other (List.mem_cons_of_mem _ member)
      have first := sized name List.mem_cons_self
      rw [List.flatMap_cons, List.length_append, List.length_cons, nameOctets,
        List.length_cons]
      unfold CString.strlen usersMaxName at first
      omega

/-- The first pass over the names computes the length of what the second one
writes. -/
private theorem fold_names {names : List CString} {start : Nat}
    (sized : ∀ name ∈ names, name.strlen ≤ usersMaxName)
    (small : start + (names.flatMap nameOctets).length < 2 ^ 32) :
    names.foldl (fun sum n => (sum + 1 + n.strlen % 2 ^ 32) % 2 ^ 32) start =
      start + (names.flatMap nameOctets).length := by
  induction names generalizing start with
  | nil => rfl
  | cons name names induction =>
      have first := sized name List.mem_cons_self
      rw [List.flatMap_cons, List.length_append, nameOctets, List.length_cons]
        at small
      have counted : (start + 1 + name.strlen % 2 ^ 32) % 2 ^ 32 =
          start + 1 + name.strlen := by
        unfold CString.strlen usersMaxName at *
        omega
      rw [List.foldl_cons, counted, induction
        (fun other member => sized other (List.mem_cons_of_mem _ member))
        (by unfold CString.strlen at *; omega), List.flatMap_cons,
        List.length_append,
        nameOctets, List.length_cons, CString.strlen]
      omega

theorem names_strlen_le {db : UserTable} (sized : db.Sized) :
    ∀ name ∈ db.names, name.strlen ≤ usersMaxName := by
  intro name member
  obtain ⟨i, user, stored, rfl⟩ := UserTable.mem_names.mp member
  exact (sized i user stored).2

def namesOctets (names : List CString) : List UInt8 :=
  (names.length / 256).toUInt8 :: names.length.toUInt8 ::
    names.flatMap nameOctets

theorem length_namesOctets_le {db : UserTable} (sized : db.Sized) :
    (namesOctets db.names).length ≤ 16386 := by
  have counted := db.length_names_le
  have summed := sum_names (names_strlen_le sized)
  unfold usersMax at counted
  simp only [namesOctets, List.length_cons]
  omega

theorem responds_listUsers {env : Env} (sized : env.users.Sized) :
    Responds env .listUsers smpOk (namesOctets env.users.names) := by
  intro b
  have counted := env.users.length_names_le
  have small := length_namesOctets_le sized
  simp only [namesOctets, List.length_cons] at small
  have folded := @fold_names _ 2 (names_strlen_le sized) (by omega)
  unfold usersMax at counted
  have length : 2 + (env.users.names.flatMap nameOctets).length =
      (namesOctets env.users.names).length := by
    simp only [namesOctets, List.length_cons]
    omega
  rw [processMgmtRequest_listUsers]
  simp only [respListUsers, registeredNames_eq, folded]
  rw [respHeader_eq, Nat.mod_eq_of_lt (by omega), Nat.mod_eq_of_lt (by omega),
    length]
  refine (writeAll_flatMap nameOctets env.users.names _).trans ?_
  rw [putU16, writeAll_append, writeAll_append]
  simp only [namesOctets, List.cons_append, List.nil_append]
  rfl

theorem responds_simple {env : Env} {r : SmpRequest} {status : UInt8}
    (written : ∀ b, (processMgmtRequest env b r.parsed).2 =
      respSimple b r.parsed.cmd status) : Responds env r status [] := by
  intro b
  rw [written, respSimple, respHeader_eq, List.append_nil]
  rfl

theorem written_addUser (env : Env) (b : Buffer) {r : MgmtReq}
    (asked : r.cmd = smpCmdAddUser) :
    (processMgmtRequest env b r).2 = respSimple b r.cmd (addUserStatus
      (usersAdd env.users (some (.ofArray r.user))
        (some (.ofArray r.pass))).2) := by
  rw [processMgmtRequest, asked, if_neg (by decide), if_neg (by decide),
    if_neg (by decide), if_pos rfl]

theorem written_delUser (env : Env) (b : Buffer) {r : MgmtReq}
    (asked : r.cmd = smpCmdDelUser) :
    (processMgmtRequest env b r).2 = respSimple b r.cmd (delUserStatus
      (usersDel env.users (some (.ofArray r.user))).2) := by
  rw [processMgmtRequest, asked, if_neg (by decide), if_neg (by decide),
    if_neg (by decide), if_neg (by decide), if_pos rfl]

theorem written_setConfig (env : Env) (b : Buffer) {r : MgmtReq}
    (asked : r.cmd = smpCmdSetConfig) :
    (processMgmtRequest env b r).2 =
      respSimple b r.cmd (setConfig env.config r).2 := by
  rw [processMgmtRequest, asked, if_neg (by decide), if_neg (by decide),
    if_neg (by decide), if_neg (by decide), if_neg (by decide), if_pos rfl]

theorem written_unknown (env : Env) (b : Buffer) {cmd : UInt8}
    (undefined : smpCmdSetConfig < cmd) :
    (processMgmtRequest env b (SmpRequest.unknown cmd undefined).parsed).2 =
      respSimple b cmd smpUnknownCommand := by
  rw [processMgmtRequest_unknown env b undefined]

theorem SmpRequest.setConfig_cmd (key : UInt8) (value : List UInt8)
    (sized : value.length = if key = smpCfgAuthRequired then 1 else 4) :
    (SmpRequest.setConfig key value sized).parsed.cmd = smpCmdSetConfig := by
  simp only [SmpRequest.parsed]
  split <;> rfl

/-- Every response has a header that announces its data, and data that fit. -/
theorem responds {env : Env} (sized : env.users.Sized) (r : SmpRequest) :
    ∃ status data, Responds env r status data ∧ data.length ≤ 16386 := by
  cases r with
  | metrics =>
      refine ⟨_, _, responds_metrics env, ?_⟩
      rw [length_counters]
      decide
  | listUsers =>
      exact ⟨_, _, responds_listUsers sized, length_namesOctets_le sized⟩
  | getConfig => exact ⟨_, _, responds_getConfig env, by simp [u32Octets]⟩
  | addUser user pass =>
      exact ⟨_, _, responds_simple fun b => written_addUser env b rfl,
        Nat.zero_le _⟩
  | delUser user =>
      exact ⟨_, _, responds_simple fun b => written_delUser env b rfl,
        Nat.zero_le _⟩
  | setConfig key value sized =>
      exact ⟨_, _, responds_simple fun b =>
        written_setConfig env b (SmpRequest.setConfig_cmd key value sized),
          Nat.zero_le _⟩
  | unknown cmd undefined =>
      exact ⟨_, _, responds_simple fun b => written_unknown env b undefined,
        Nat.zero_le _⟩

theorem getU16_header {cmd status : UInt8} {datalen : Nat}
    (small : datalen < 2 ^ 16) :
    getU16 (headerOctets cmd status datalen) 3 = datalen := by
  simp only [getU16, headerOctets, octetAt, List.getElem?_cons_zero,
    List.getElem?_cons_succ, Option.getD_some, Nat.toUInt8_eq,
    UInt8.toNat_ofNat']
  omega

theorem doRequest_response {cmd status : UInt8} {data : List UInt8}
    (small : data.length < 2 ^ 16) :
    doRequest (headerOctets cmd status data.length ++ data) =
      some ⟨cmd, status, data⟩ := by
  have hdr : recvExact 5 (headerOctets cmd status data.length ++ data) =
      some (headerOctets cmd status data.length, data) := by
    simp [recvExact, headerOctets]
  have whole : recvExact data.length data = some (data, []) := by
    simp [recvExact]
  rw [doRequest, hdr, Option.bind_some]
  dsimp only
  rw [getU16_header small, whole]
  rfl

theorem getU64_octets (front rest : List UInt8) {v : Nat} (small : v < 2 ^ 64) :
    getU64 (front ++ (u64Octets v ++ rest)) front.length = v := by
  simp [getU64, u64Octets, octetAt, List.range_succ, UInt8.toNat_ofNat']
  omega

theorem u32At_after (front rest : List UInt8) {v : Nat} (small : v < 2 ^ 32) :
    u32At (front ++ (u32Octets v ++ rest)) front.length = v := by
  simp [u32At, u32Octets, octetAt, UInt8.toNat_ofNat']
  omega

private theorem getU64_counters (front : List UInt8) {counters : List Nat}
    (small : ∀ v ∈ counters, v < 2 ^ 64) :
    (List.range counters.length).map (fun k =>
        getU64 (front ++ counters.flatMap u64Octets) (front.length + 8 * k)) =
      counters := by
  induction counters generalizing front with
  | nil => rfl
  | cons v counters induction =>
      have first := getU64_octets front (counters.flatMap u64Octets)
        (small v List.mem_cons_self)
      have rest := induction (front ++ u64Octets v) fun other member =>
        small other (List.mem_cons_of_mem _ member)
      rw [List.length_cons, List.range_succ_eq_map, List.map_cons,
        List.flatMap_cons, Nat.mul_zero, Nat.add_zero, first, List.map_map]
      rw [List.append_assoc, List.length_append] at rest
      refine congrArg (v :: ·) (Eq.trans ?_ rest)
      apply List.map_congr_left
      intro k _
      have eight : (u64Octets v).length = 8 := rfl
      rw [Function.comp_apply, eight]
      congr 1
      omega

theorem cmdMetrics_response {env : Env} (fits : env.metrics.Fits)
    (cmd : UInt8) :
    cmdMetrics
      (headerOctets cmd smpOk (env.counters.flatMap u64Octets).length ++
      env.counters.flatMap u64Octets) = some env.counters := by
  have small : ∀ v ∈ env.counters, v < 2 ^ 64 := by
    have users := env.users.length_names_le
    rw [← UserTable.usersCount_eq] at users
    unfold usersMax at users
    simp only [Env.counters, List.forall_mem_cons, List.not_mem_nil,
      false_implies, implies_true, and_true]
    exact ⟨fits.historicConnections, fits.currentConnections,
      metricsBytesTransferred_lt _, fits.failedConnections, by
        omega, fits.bytesSent,
      fits.bytesReceived⟩
  have read := getU64_counters [] small
  have length := length_counters env
  rw [cmdMetrics, doRequest_response (by rw [length]; decide), Option.bind_some,
    if_neg (by simp [length])]
  simpa [Env.counters, List.range_succ] using read

theorem cmdGetConfig_response (cmd : UInt8) {size timeout : Nat} {flag : Bool}
    (smallSize : size < 2 ^ 32) (smallTimeout : timeout < 2 ^ 32) :
    let data := u32Octets size ++ (u32Octets timeout ++ [if flag then 1 else 0])
    cmdGetConfig (headerOctets cmd smpOk data.length ++ data) =
      some (size, timeout, flag) := by
  intro data
  have length : data.length = 9 := rfl
  have first : getU32 data 0 = size := u32At_after [] _ smallSize
  have second : getU32 data 4 = timeout :=
    u32At_after (u32Octets size) _ smallTimeout
  have third : (octetAt data 8 != 0) = flag := by
    cases flag <;> rfl
  rw [cmdGetConfig, doRequest_response (by rw [length]; decide),
    Option.bind_some,
    if_neg (by simp [length]), first, second, third]

private theorem listUsersLoop_names (front : List UInt8) {names : List CString}
    (sized : ∀ name ∈ names, name.strlen ≤ usersMaxName) :
    listUsersLoop (front ++ names.flatMap nameOctets) names.length
      front.length =
        names := by
  induction names generalizing front with
  | nil => rfl
  | cons name names induction =>
      have rest := induction (front ++ nameOctets name) fun other member =>
        sized other (List.mem_cons_of_mem _ member)
      have short : name.octets.length ≤ 255 := sized name List.mem_cons_self
      have split : front ++ (name :: names).flatMap nameOctets =
          front ++ name.strlen.toUInt8 ::
            (name.octets ++ names.flatMap nameOctets) := by
        simp [nameOctets]
      have again : front ++ nameOctets name ++ names.flatMap nameOctets =
          front ++ name.strlen.toUInt8 ::
            (name.octets ++ names.flatMap nameOctets) := by
        simp [nameOctets]
      have ulen : (octetAt (front ++ name.strlen.toUInt8 ::
          (name.octets ++ names.flatMap nameOctets)) front.length).toNat =
            name.octets.length := by
        rw [octetAt_after rfl]
        exact toNat_length short
      have named : slice (front ++ name.strlen.toUInt8 ::
          (name.octets ++ names.flatMap nameOctets)) (front.length + 1)
            name.octets.length = name.octets := by
        have regrouped : front ++ name.strlen.toUInt8 ::
            (name.octets ++ names.flatMap nameOctets) =
              (front ++ [name.strlen.toUInt8]) ++
                (name.octets ++ names.flatMap nameOctets) := by
          simp
        rw [regrouped]
        exact slice_after (by simp) rfl _
      have kept : CString.ofArray name.octets = name :=
        CString.ext_octets (CString.octets_ofArray_of_noNul name.noNul)
      rw [again] at rest
      rw [split, List.length_cons, listUsersLoop, if_pos (by simp)]
      dsimp only
      rw [ulen,
        if_neg (by simp only [List.length_append, List.length_cons]; omega),
        named, kept]
      have next : front.length + 1 + name.octets.length =
          (front ++ nameOctets name).length := by
        simp only [nameOctets, List.length_append, List.length_cons]
        omega
      rw [next, rest]

theorem cmdListUsers_response (cmd : UInt8) {db : UserTable}
    (sized : db.Sized) :
    cmdListUsers (headerOctets cmd smpOk (namesOctets db.names).length ++
      namesOctets db.names) = some db.names := by
  have long := length_namesOctets_le sized
  have counted := db.length_names_le
  unfold usersMax at counted
  have two : ¬ (namesOctets db.names).length < 2 := by
    simp only [namesOctets, List.length_cons]
    omega
  have count : getU16 (namesOctets db.names) 0 = db.names.length := by
    simp only [getU16, namesOctets, octetAt, List.getElem?_cons_zero,
      List.getElem?_cons_succ, Option.getD_some, Nat.toUInt8_eq,
      UInt8.toNat_ofNat']
    omega
  have loop := listUsersLoop_names
    [(db.names.length / 256).toUInt8, db.names.length.toUInt8]
    (names_strlen_le sized)
  rw [cmdListUsers, doRequest_response (by omega), Option.bind_some,
    if_neg (by simp [two]), count]
  exact congrArg some loop

theorem usersExists_iff {db : UserTable} {name : CString} :
    usersExists db name = true ↔ name ∈ db.names := by
  rw [UserTable.mem_names]
  unfold usersExists
  constructor
  · intro found
    obtain ⟨i, located⟩ := Option.isSome_iff_exists.mp found
    obtain ⟨user, stored, named⟩ := UserTable.find_some located
    exact ⟨i, user, stored, named⟩
  · rintro ⟨i, user, stored, named⟩
    cases found : db.find name with
    | none => exact absurd named (UserTable.find_none found stored)
    | some idx => simp [found]

/-- What is in the write buffer once the response was built. -/
theorem Responds.content {env : Env} {r : SmpRequest} {status : UInt8}
    {data : List UInt8} (responds : Responds env r status data)
    (fits : data.length ≤ 16386) {wbuf : Buffer}
    (sized : wbuf.limit = mgmtWbuf) :
    (processMgmtRequest env (bufferReset wbuf) r.parsed).2.content =
      headerOctets r.parsed.cmd status data.length ++ data := by
  rw [responds]
  apply Buffer.content_writeAll_reset
  rw [sized, List.length_append]
  unfold mgmtWbuf headerOctets
  simp only [List.length_cons, List.length_nil]
  omega

/-- Every response is as long as its header says, and the client decodes it to
what the server has: the counters, the configuration, or each registered name
once and in the order of the table. -/
theorem response_codec {env : Env} (reached : env.records.Reachable)
    {wbuf : Buffer} (sized : wbuf.limit = mgmtWbuf) :
    (∀ r : SmpRequest,
      let response :=
        (processMgmtRequest env (bufferReset wbuf) r.parsed).2.content
      response.length = 5 + getU16 response 3 ∧
      octetAt response 0 = smpVersion ∧
        octetAt response 1 = r.parsed.cmd ∧
        ∃ status data, data.length = getU16 response 3 ∧
          doRequest response = some ⟨r.parsed.cmd, status, data⟩) ∧
    cmdMetrics (processMgmtRequest env (bufferReset wbuf)
      SmpRequest.metrics.parsed).2.content = some env.counters ∧
    cmdGetConfig (processMgmtRequest env (bufferReset wbuf)
      SmpRequest.getConfig.parsed).2.content =
        some (env.config.ioBufferSize, env.config.connTimeoutSecs,
          env.config.authRequired) ∧
    cmdListUsers (processMgmtRequest env (bufferReset wbuf)
      SmpRequest.listUsers.parsed).2.content = some env.users.names ∧
    env.users.names.Nodup ∧
    ∀ name : CString, usersExists env.users name = true ↔
      name ∈ env.users.names := by
  obtain ⟨unique, named, fits, least, most, timeout⟩ := reached.bounded
  have small : env.config.ioBufferSize < 2 ^ 32 :=
    Nat.lt_of_le_of_lt most (by decide)
  refine ⟨?_, ?_, ?_, ?_, UserTable.nodup_names unique, fun name =>
    usersExists_iff⟩
  · intro r response
    obtain ⟨status, data, responds, short⟩ := responds named r
    have content : response = headerOctets r.parsed.cmd status data.length ++
        data :=
      responds.content short sized
    have announced : getU16 response 3 = data.length := by
      have header : getU16 response 3 =
          getU16 (headerOctets r.parsed.cmd status data.length) 3 := by
        rw [content]
        rfl
      rw [header, getU16_header (by omega)]
    refine ⟨?_, ?_, ?_, status, data, announced.symm, ?_⟩
    · rw [announced, content, List.length_append]
      rfl
    · rw [content]
      rfl
    · rw [content]
      rfl
    · rw [content]
      exact doRequest_response (by omega)
  · rw [(responds_metrics env).content (by rw [length_counters]; decide) sized]
    exact cmdMetrics_response fits _
  · rw [(responds_getConfig env).content (by simp [u32Octets]) sized]
    exact cmdGetConfig_response _ small timeout
  · rw [(responds_listUsers named).content (length_namesOctets_le named) sized]
    exact cmdListUsers_response _ named

/-- A server with one user. -/
theorem response_codec_sample :
    let users :=
      (usersAdd usersInit (some (.ofString "ab")) (some (.ofString "cd"))).1
    let env := envInit ⟨Table.empty, 0⟩ configInitDefaults users
    cmdListUsers
      (processMgmtRequest env (bufferReset (bufferInit mgmtWbuf fun _ => 0))
      SmpRequest.listUsers.parsed).2.content = some [.ofString "ab"] := by
  intro users env
  have reached : env.records.Reachable :=
    .option (.start configInitDefaults rfl rfl) (some (.ofString "ab"))
      (some (.ofString "cd"))
  have listed := (@response_codec env reached (bufferInit mgmtWbuf fun _ => 0)
    rfl).2.2.2.1
  rw [listed]
  decide +kernel

end SocksProxy
