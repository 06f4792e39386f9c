import SocksProxy.Lib.Delimited
import SocksProxy.Mgmt.Codec
import SocksProxy.Sniffer
import SocksProxy.Socks5.Types

/-! The access log of `logger.c`: the lines that are printed, and how a log can
be read back. -/

namespace SocksProxy

open Delimited

def tab : UInt8 := 9

def literal (format : String) : List UInt8 := (CString.ofString format).octets

structure Stamp where
  text : CString
  noTab : tab ∉ text.octets
  noLineFeed : lineFeed ∉ text.octets

def loggerAccess (ts : Stamp) (record : AccessRecord) : List UInt8 :=
  ts.text.octets ++ literal "\t" ++ record.user.octets ++ literal "\t" ++
    record.cmd.octets ++
    literal "\t" ++ record.origin.octets ++ literal " -> " ++
    record.dest.octets ++
    literal "\tstatus=" ++ (CString.ofNat record.status.toNat).octets ++
    literal "\n"

def loggerPop3 (ts : Stamp) (record : Pop3Record) : List UInt8 :=
  ts.text.octets ++ literal "\tPOP3\t" ++ record.proxyUser.octets ++
    literal "\t" ++
    record.origin.octets ++ literal " -> " ++ record.dest.octets ++
    literal "\tuser=" ++
    record.sniffUser.octets ++ literal "\tpass=" ++ record.sniffPass.octets ++
    literal "\n"

inductive LogRecord
  | access (record : AccessRecord)
  | pop3 (record : Pop3Record)
  deriving DecidableEq

namespace LogRecord

def line (ts : Stamp) : LogRecord → List UInt8
  | access record => loggerAccess ts record
  | pop3 record => loggerPop3 ts record

def fieldCount : LogRecord → Nat
  | access _ => 5
  | pop3 _ => 6

def fields (ts : Stamp) : LogRecord → List (List UInt8)
  | access record =>
      [ts.text.octets, record.user.octets, record.cmd.octets,
        record.origin.octets ++ literal " -> " ++ record.dest.octets,
        literal "status=" ++ (CString.ofNat record.status.toNat).octets]
  | pop3 record =>
      [ts.text.octets, literal "POP3", record.proxyUser.octets,
        record.origin.octets ++ literal " -> " ++ record.dest.octets,
        literal "user=" ++ record.sniffUser.octets,
        literal "pass=" ++ record.sniffPass.octets]

theorem line_eq (ts : Stamp) (record : LogRecord) :
    record.line ts = join tab (record.fields ts) ++ [lineFeed] := by
  have tabbed (format : String) : literal ("\t" ++ format) =
      tab :: literal format := by
    simp [literal, CString.ofString, tab]
  cases record with
  | access record =>
      simp only [line, loggerAccess, fields, join, List.intercalate_cons_cons,
        List.intercalate_singleton]
      rw [show literal "\tstatus=" = tab :: literal "status=" from
        tabbed "status=", show literal "\t" = [tab] from rfl,
        show literal "\n" = [lineFeed] from rfl]
      simp
  | pop3 record =>
      simp only [line, loggerPop3, fields, join, List.intercalate_cons_cons,
        List.intercalate_singleton]
      rw [show literal "\tuser=" = tab :: literal "user=" from tabbed "user=",
        show literal "\tpass=" = tab :: literal "pass=" from tabbed "pass=",
        show literal "\tPOP3\t" = tab :: literal "POP3" ++ [tab] from by decide,
        show literal "\t" = [tab] from rfl, show literal "\n" =
          [lineFeed] from rfl]
      simp

/-- The strings of a record that the client has a hand in. -/
def free : LogRecord → List (List UInt8)
  | access record => [record.user.octets, record.dest.octets]
  | pop3 record =>
      [record.proxyUser.octets, record.dest.octets, record.sniffUser.octets,
        record.sniffPass.octets]

/-- The address of the client and the name of the command are printed by the
server. -/
def Regular : LogRecord → Prop
  | access record => GraphicOctets record.cmd ∧ GraphicOctets record.origin
  | pop3 record => GraphicOctets record.origin

end LogRecord

def Plain (octets : List UInt8) : Prop := tab ∉ octets ∧ lineFeed ∉ octets

instance (octets : List UInt8) : Decidable (Plain octets) :=
  inferInstanceAs (Decidable (_ ∧ _))

theorem plain_append {left right : List UInt8} :
    Plain (left ++ right) ↔ Plain left ∧ Plain right := by
  simp only [Plain, List.mem_append, not_or]
  constructor
  · rintro ⟨⟨leftTab, rightTab⟩, leftLine, rightLine⟩
    exact ⟨⟨leftTab, leftLine⟩, rightTab, rightLine⟩
  · rintro ⟨⟨leftTab, leftLine⟩, rightTab, rightLine⟩
    exact ⟨⟨leftTab, rightTab⟩, leftLine, rightLine⟩

theorem GraphicOctets.plain {string : CString}
    (graphic : GraphicOctets string) :
    Plain string.octets := by
  constructor
  · intro member
    exact absurd (graphic tab member).1 (by decide)
  · intro member
    exact absurd (graphic lineFeed member).1 (by decide)

theorem Stamp.plain (ts : Stamp) : Plain ts.text.octets :=
  ⟨ts.noTab, ts.noLineFeed⟩

structure OneLine (record : LogRecord) (line : List UInt8) : Prop where
  once : line.count lineFeed = 1
  last : line.getLast? = some lineFeed
  fields : (split tab line.dropLast).length = record.fieldCount

theorem LogRecord.plain_fields {record : LogRecord} (regular : record.Regular)
    (ts : Stamp) :
    (∀ field ∈ record.fields ts, Plain field) ↔ ∀ field ∈ record.free,
      Plain field := by
  cases record with
  | access record =>
      have status : Plain
          (literal "status=" ++ (CString.ofNat record.status.toNat).octets) :=
        plain_append.mpr ⟨by decide, (graphic_ofNat _).plain⟩
      have arrow : Plain (literal " -> ") := by decide
      simp only [fields, free, List.forall_mem_cons, List.not_mem_nil,
        false_imp_iff, implies_true, and_true, plain_append, ts.plain,
        regular.1.plain, regular.2.plain, plain_append.mp status,
        arrow, true_and]
  | pop3 record =>
      have route : Plain (literal "POP3") ∧ Plain (literal " -> ") ∧
          Plain (literal "user=") ∧ Plain (literal "pass=") := by
        decide
      have origin := GraphicOctets.plain regular
      simp only [fields, free, List.forall_mem_cons, List.not_mem_nil,
        false_imp_iff, implies_true, and_true, plain_append, ts.plain, origin,
        route, true_and]

theorem LogRecord.length_fields (record : LogRecord) (ts : Stamp) :
    (record.fields ts).length = record.fieldCount := by
  cases record <;> rfl

theorem LogRecord.fields_ne_nil (record : LogRecord) (ts : Stamp) :
    record.fields ts ≠ [] := by
  cases record <;> simp [fields]

/-- A record is one line of its kind exactly when nothing that the client has a
hand in delimits anything. -/
theorem LogRecord.oneLine_iff {record : LogRecord} (regular : record.Regular)
    (ts : Stamp) :
    OneLine record (record.line ts) ↔ ∀ field ∈ record.free, Plain field := by
  have once : (record.line ts).count lineFeed = 1 ↔
      ∀ field ∈ record.fields ts, lineFeed ∉ field := by
    rw [line_eq, count_terminated, not_mem_join (by decide)]
  have counted : (split tab (record.line ts).dropLast).length =
      record.fieldCount ↔ ∀ field ∈ record.fields ts, tab ∉ field := by
    rw [line_eq, List.dropLast_concat, ← record.length_fields ts,
      length_split_join (record.fields_ne_nil ts)]
  rw [← plain_fields regular ts]
  constructor
  · intro oneLine field member
    exact ⟨counted.mp oneLine.fields field member,
      once.mp oneLine.once field member⟩
  · intro plain
    refine ⟨once.mpr fun field member => (plain field member).2, ?_,
      counted.mpr fun field member => (plain field member).1⟩
    rw [line_eq, List.getLast?_concat]

inductive LogTuple
  | access (user origin dest : List UInt8) (status : Nat)
  | pop3 (user origin dest sniffUser sniffPass : List UInt8)
  deriving DecidableEq

def LogRecord.tuple : LogRecord → LogTuple
  | access record =>
      .access record.user.octets record.origin.octets record.dest.octets
        record.status.toNat
  | pop3 record =>
      .pop3 record.proxyUser.octets record.origin.octets record.dest.octets
        record.sniffUser.octets record.sniffPass.octets

/-- The part of a route before the blank of its arrow, and the part after the
arrow. -/
def readRoute (route : List UInt8) : List UInt8 × List UInt8 :=
  let origin := route.takeWhile (· != 32)
  (origin, route.drop (origin.length + 4))

def readFields : List (List UInt8) → Option LogTuple
  | [_, user, _, route, status] =>
      some (.access user (readRoute route).1 (readRoute route).2
        (strtoul (.ofArray (status.drop 7))))
  | [_, _, user, route, sniffUser, sniffPass] =>
      some (.pop3 user (readRoute route).1 (readRoute route).2
        (sniffUser.drop 5) (sniffPass.drop 5))
  | _ => none

def readLine (line : List UInt8) : Option LogTuple :=
  readFields (split tab line)

def readLog (log : List UInt8) : List (Option LogTuple) :=
  (lines lineFeed log).map readLine

theorem readRoute_route {origin : CString} (graphic : GraphicOctets origin)
    (dest : List UInt8) :
    readRoute (origin.octets ++ literal " -> " ++ dest) =
      (origin.octets, dest) := by
  have taken : (origin.octets ++ literal " -> " ++ dest).takeWhile (· != 32) =
      origin.octets := by
    rw [List.append_assoc, List.takeWhile_append_of_pos]
    · rw [show literal " -> " = 32 :: [45, 62, 32] from by decide]
      simp
    · intro octet member
      have bounds := graphic octet member
      rw [bne_iff_ne]
      intro blank
      rw [blank] at bounds
      exact absurd bounds.1 (by decide)
  have dropped :
      (origin.octets ++ literal " -> " ++ dest).drop
      (origin.octets.length + 4) = dest := by
    apply List.drop_left'
    rw [List.length_append]
    rfl
  unfold readRoute
  dsimp only
  rw [taken, dropped]

theorem LogRecord.readLine_fields {record : LogRecord}
    (regular : record.Regular) (ts : Stamp)
    (plain : ∀ field ∈ record.free, Plain field) :
    readLine (join tab (record.fields ts)) = some record.tuple := by
  have free := (plain_fields regular ts).mpr plain
  rw [readLine, split_join (record.fields_ne_nil ts) fun field member =>
    (free field member).1]
  cases record with
  | access record =>
      have status : strtoul (.ofArray ((literal "status=" ++
          (CString.ofNat record.status.toNat).octets).drop 7)) =
            record.status.toNat := by
        rw [show (literal "status=" ++
          (CString.ofNat record.status.toNat).octets).drop 7 =
            (CString.ofNat record.status.toNat).octets from List.drop_left'
            (by decide)]
        rw [show CString.ofArray (CString.ofNat record.status.toNat).octets =
          _ from
          CString.ext_octets
            (CString.octets_ofArray_of_noNul (CString.noNul _))]
        have small := record.status.toNat_lt
        exact strtoul_ofNat (by omega)
      rw [fields, readFields, readRoute_route regular.2, status]
      rfl
  | pop3 record =>
      rw [fields, readFields, readRoute_route regular,
        show (literal "user=" ++ record.sniffUser.octets).drop 5 = _ from
          List.drop_left' (by decide),
        show (literal "pass=" ++ record.sniffPass.octets).drop 5 = _ from
          List.drop_left' (by decide)]
      rfl

structure Entry where
  stamp : Stamp
  record : LogRecord

def Entry.line (e : Entry) : List UInt8 := e.record.line e.stamp

def accessLog (entries : List Entry) : List UInt8 := entries.flatMap Entry.line

structure Unforged (entries : List Entry) : Prop where
  oneLine : ∀ e ∈ entries, OneLine e.record e.line
  readable : readLog (accessLog entries) = entries.map fun e =>
    some e.record.tuple
  distinct : ∀ e ∈ entries, ∀ other ∈ entries,
    e.record.tuple ≠ other.record.tuple → e.line ≠ other.line

theorem unforged_iff {entries : List Entry}
    (regular : ∀ e ∈ entries, e.record.Regular) :
    Unforged entries ↔ ∀ e ∈ entries, ∀ field ∈ e.record.free, Plain field := by
  constructor
  · intro unforged e member
    exact (e.record.oneLine_iff (regular e member) e.stamp).mp
      (unforged.oneLine e member)
  · intro plain
    have reads (e : Entry) (member : e ∈ entries) :
        readLine (join tab (e.record.fields e.stamp)) = some e.record.tuple :=
      e.record.readLine_fields (regular e member) e.stamp (plain e member)
    refine ⟨fun e member => ?_, ?_, ?_⟩
    · exact (e.record.oneLine_iff (regular e member) e.stamp).mpr
        (plain e member)
    · have log : accessLog entries = unlines lineFeed
          (entries.map fun e => join tab (e.record.fields e.stamp)) := by
        rw [accessLog, unlines, List.flatMap_map]
        exact List.flatMap_congr fun e _ => e.record.line_eq e.stamp
      rw [readLog, log, lines_unlines, List.map_map]
      · exact List.map_congr_left reads
      · rw [List.forall_mem_map]
        intro e member
        rw [not_mem_join (by decide)]
        intro field inside
        exact ((e.record.plain_fields (regular e member) e.stamp).mpr
          (plain e member) field inside).2
    · intro e member other alsoMember differ same
      unfold Entry.line at same
      rw [LogRecord.line_eq, LogRecord.line_eq] at same
      have tuples := reads e member
      rw [List.append_cancel_right same, reads other alsoMember] at tuples
      exact differ (Option.some.inj tuples).symm

end SocksProxy
