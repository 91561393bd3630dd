import Mathlib.Tactic.IntervalCases
import XdpFlows.Core.FormattedText
import XdpFlows.Flow.Store

/-!
# The line of a flow

`printTupleFileText` (`export.c`) writes one line for a session.  The addresses are written byte by
byte as they lie in memory, the least significant one first: `[3]` down to `[0]` for an IP address,
which is kept in host order, and `[0]` up to `[5]` for a MAC address, which was copied from the frame.
A MAC address is six bytes long; the two bytes more of the field that holds it are not part of it.

`decode` reads a line back from its words.  `decode_printTupleFileText` says that it finds all that is
written, so that lines are equal only for sessions that agree in it.
-/

namespace Flow

open FormattedText

/-! ## Writing -/

/-- Byte `k` of a number in memory. -/
def memByte (n k : ℕ) : ℕ :=
  n / 256 ^ k % 256

/-- `"%u.%u.%u.%u "`. -/
def ipFormat : List Conv :=
  [.u, .lit '.', .u, .lit '.', .u, .lit '.', .u, .lit ' ']

/-- `"%02X:%02X:%02X:%02X:%02X:%02X "`. -/
def macFormat : List Conv :=
  [.zeroX 2, .lit ':', .zeroX 2, .lit ':', .zeroX 2, .lit ':', .zeroX 2, .lit ':', .zeroX 2,
    .lit ':', .zeroX 2, .lit ' ']

/-- `"p%u %u %u %u %u "`. -/
def countsFormat : List Conv :=
  [.lit 'p', .u, .lit ' ', .u, .lit ' ', .u, .lit ' ', .u, .lit ' ', .u, .lit ' ']

/-- `"%u.%06u "`. -/
def timeFormat : List Conv :=
  [.u, .lit '.', .zeroU 6, .lit ' ']

/-- The format of the line.  The conversions differ in the width of their arguments, which are passed
unchanged. -/
def tupleFormat : List Conv :=
  ipFormat ++ ipFormat ++ macFormat ++ macFormat ++ countsFormat ++ timeFormat ++ timeFormat
    ++ [.u, .lit ' ', .lit '\n']

/-- `duration`, in seconds. -/
def IPSession.duration (session : IPSession) : UInt64 :=
  session.lastpacketTimestamp / 1000000 - session.firstpacketTimestamp / 1000000 + 1

/-- The arguments of the format. -/
def tupleArgs (session : IPSession) : List ℕ :=
  let sourceIP := memByte session.incoming.sourceIp.toNat
  let destinationIP := memByte session.incoming.destinationIp.toNat
  let sourceMAC := memByte session.incoming.sourceMac.toNat
  let destinationMAC := memByte session.incoming.destinationMac.toNat
  [sourceIP 3, sourceIP 2, sourceIP 1, sourceIP 0,
    destinationIP 3, destinationIP 2, destinationIP 1, destinationIP 0,
    sourceMAC 0, sourceMAC 1, sourceMAC 2, sourceMAC 3, sourceMAC 4, sourceMAC 5,
    destinationMAC 0, destinationMAC 1, destinationMAC 2, destinationMAC 3, destinationMAC 4,
    destinationMAC 5,
    session.incoming.transportProtocol.toNat,
    session.incoming.sourcePort.toNat,
    session.incoming.destinationPort.toNat,
    session.incoming.npack.toNat,
    session.incoming.nbytes.toNat,
    (session.firstpacketTimestamp / 1000000).toNat, (session.firstpacketTimestamp % 1000000).toNat,
    (session.lastpacketTimestamp / 1000000).toNat, (session.lastpacketTimestamp % 1000000).toNat,
    session.duration.toNat]

/-- `printTupleFileText`: the text written to `flow_file_txt`. -/
def printTupleFileText (session : IPSession) : List Char :=
  fprintf tupleFormat (tupleArgs session)

/-! ## Reading -/

/-- What a line tells of a session. -/
structure TupleLine where
  sourceIp : UInt32
  destinationIp : UInt32
  sourceMac : BitVec 48
  destinationMac : BitVec 48
  transportProtocol : UInt8
  sourcePort : UInt16
  destinationPort : UInt16
  npack : UInt32
  nbytes : UInt64
  first : UInt64
  last : UInt64
deriving DecidableEq, Repr

/-- The fields of a session that are written. -/
def IPSession.tupleLine (session : IPSession) : TupleLine where
  sourceIp := session.incoming.sourceIp
  destinationIp := session.incoming.destinationIp
  sourceMac := session.incoming.sourceMac.toBitVec.setWidth 48
  destinationMac := session.incoming.destinationMac.toBitVec.setWidth 48
  transportProtocol := session.incoming.transportProtocol
  sourcePort := session.incoming.sourcePort
  destinationPort := session.incoming.destinationPort
  npack := session.incoming.npack
  nbytes := session.incoming.nbytes
  first := session.firstpacketTimestamp
  last := session.lastpacketTimestamp

/-- A blank, a dot or a colon. -/
def tupleSeparator (c : Char) : Bool :=
  c = ' ' || c = '.' || c = ':'

/-- Bytes with the most significant one first, as words. -/
def ipOfWords (words : List (List Char)) : UInt32 :=
  UInt32.ofNat (words.foldl (fun n word => 256 * n + ofDecimal word) 0)

/-- Bytes with the least significant one first, as words. -/
def macOfWords (words : List (List Char)) : BitVec 48 :=
  BitVec.ofNat 48 (words.foldr (fun word n => ofHex word + 256 * n) 0)

/-- Seconds and microseconds. -/
def timeOfWords (words : List (List Char)) : UInt64 :=
  UInt64.ofNat (words.foldl (fun n word => 1000000 * n + ofDecimal word) 0)

/-- Reading a line. -/
def decode (text : List Char) : TupleLine :=
  let words := text.splitOnP tupleSeparator
  let number := fun k => ofDecimal (words.getD k [])
  { sourceIp := ipOfWords (words.take 4)
    destinationIp := ipOfWords ((words.drop 4).take 4)
    sourceMac := macOfWords ((words.drop 8).take 6)
    destinationMac := macOfWords ((words.drop 14).take 6)
    transportProtocol := UInt8.ofNat (ofDecimal ((words.getD 20 []).drop 1))
    sourcePort := UInt16.ofNat (number 21)
    destinationPort := UInt16.ofNat (number 22)
    npack := UInt32.ofNat (number 23)
    nbytes := UInt64.ofNat (number 24)
    first := timeOfWords ((words.drop 25).take 2)
    last := timeOfWords ((words.drop 27).take 2) }

/-! ## The round trip -/

lemma plain_tupleSeparator : Plain tupleSeparator := by
  intro c hc
  simp only [tupleSeparator, Bool.or_eq_false_iff, decide_eq_false_iff_not]
  refine ⟨⟨?_, ?_⟩, ?_⟩
  · rintro rfl
    simp at hc
  · rintro rfl
    simp at hc
  · rintro rfl
    simp at hc

/-- The words of a line. -/
def tupleWords (session : IPSession) : List (List Char) :=
  let args := tupleArgs session
  (args.take 8).map decimal ++ ((args.drop 8).take 12).map (fun n => zeroPadded 2 (hex n))
    ++ ['p' :: decimal (args.getD 20 0)] ++ ((args.drop 21).take 5).map decimal
    ++ [zeroPadded 6 (decimal (args.getD 26 0)), decimal (args.getD 27 0),
      zeroPadded 6 (decimal (args.getD 28 0)), decimal (args.getD 29 0), ['\n']]

lemma splitOnP_printTupleFileText (session : IPSession) :
    (printTupleFileText session).splitOnP tupleSeparator = tupleWords session := by
  have hword : ∀ n, Word tupleSeparator (decimal n) := word_decimal plain_tupleSeparator
  have hu := fun n => @splitOnP_word tupleSeparator _ (hword n)
  have hp := fun n => @splitOnP_word tupleSeparator _ (word_cons (c := 'p') rfl (hword n))
  have hU := fun n => @splitOnP_word tupleSeparator _
    (word_zeroPadded plain_tupleSeparator 6 (hword n))
  have hX := fun n => @splitOnP_word tupleSeparator _
    (word_zeroPadded plain_tupleSeparator 2 (word_hex plain_tupleSeparator n))
  have hblank : tupleSeparator ' ' = true := rfl
  have hdot : tupleSeparator '.' = true := rfl
  have hcolon : tupleSeparator ':' = true := rfl
  simp only [printTupleFileText, tupleFormat, ipFormat, macFormat, countsFormat, timeFormat,
    tupleArgs, fprintf, List.cons_append, List.nil_append]
  simp only [← List.cons_append (a := 'p'), hu _ hblank, hu _ hdot, hp _ hblank, hU _ hblank,
    hX _ hblank, hX _ hcolon]
  rfl

lemma ipOfWords_ip (x : UInt32) : ipOfWords [decimal (memByte x.toNat 3), decimal (memByte x.toNat 2),
    decimal (memByte x.toNat 1), decimal (memByte x.toNat 0)] = x := by
  have hlt := x.toNat_lt
  simp only [ipOfWords, List.foldl_cons, List.foldl_nil, ofDecimal_decimal, memByte]
  refine UInt32.toNat_inj.mp ?_
  rw [UInt32.toNat_ofNat']
  omega

lemma macOfWords_mac (m : UInt64) : macOfWords ([memByte m.toNat 0, memByte m.toNat 1, memByte m.toNat 2,
    memByte m.toNat 3, memByte m.toNat 4, memByte m.toNat 5].map fun n => zeroPadded 2 (hex n))
      = m.toBitVec.setWidth 48 := by
  simp only [macOfWords, List.map_cons, List.map_nil, List.foldr_cons, List.foldr_nil, ofHex_zeroPadded,
    memByte]
  refine BitVec.eq_of_toNat_eq ?_
  rw [BitVec.toNat_ofNat, BitVec.toNat_setWidth, UInt64.toNat_toBitVec]
  omega

lemma timeOfWords_time (t : UInt64) : timeOfWords [decimal (t / 1000000).toNat,
    zeroPadded 6 (decimal (t % 1000000).toNat)] = t := by
  have hlt := t.toNat_lt
  simp only [timeOfWords, List.foldl_cons, List.foldl_nil, ofDecimal_decimal, ofDecimal_zeroPadded]
  refine UInt64.toNat_inj.mp ?_
  rw [UInt64.toNat_ofNat', UInt64.toNat_div, UInt64.toNat_mod]
  have hmillion : (1000000 : UInt64).toNat = 1000000 := rfl
  rw [hmillion]
  omega

/-- **A line is read back.** -/
lemma decode_printTupleFileText (session : IPSession) :
    decode (printTupleFileText session) = session.tupleLine := by
  simp only [decode, splitOnP_printTupleFileText]
  refine (TupleLine.mk.injEq ..).mpr ⟨?_, ?_, ?_, ?_, ?_, ?_, ?_, ?_, ?_, ?_, ?_⟩
  · exact ipOfWords_ip _
  · exact ipOfWords_ip _
  · exact macOfWords_mac _
  · exact macOfWords_mac _
  · simp [tupleWords, tupleArgs]
  · simp [tupleWords, tupleArgs]
  · simp [tupleWords, tupleArgs]
  · simp [tupleWords, tupleArgs]
  · simp [tupleWords, tupleArgs]
  · exact timeOfWords_time _
  · exact timeOfWords_time _

/-- The bytes that are written are those of the address. -/
lemma memByte_mac {m m' : UInt64} (h : m.toBitVec.setWidth 48 = m'.toBitVec.setWidth 48) {k : ℕ}
    (hk : k < 6) : memByte m.toNat k = memByte m'.toNat k := by
  have hmod := congrArg BitVec.toNat h
  simp only [BitVec.toNat_setWidth, UInt64.toNat_toBitVec] at hmod
  simp only [memByte]
  interval_cases k
  · omega
  · omega
  · omega
  · omega
  · omega
  · omega

lemma tupleArgs_congr {session session' : IPSession} (h : session.tupleLine = session'.tupleLine) :
    tupleArgs session = tupleArgs session' := by
  simp only [IPSession.tupleLine, TupleLine.mk.injEq] at h
  obtain ⟨hsource, hdestination, hsourceMac, hdestinationMac, hproto, hsport, hdport, hnpack, hnbytes,
    hfirst, hlast⟩ := h
  simp (disch := decide) only [tupleArgs, IPSession.duration, hsource, hdestination,
    memByte_mac hsourceMac, memByte_mac hdestinationMac, hproto, hsport, hdport, hnpack, hnbytes,
    hfirst, hlast]

/-- **The line loses nothing it prints**: it is read back, and two sessions have the same line exactly
if they agree in all of it. -/
theorem line_loses_nothing (session session' : IPSession) :
    decode (printTupleFileText session) = session.tupleLine
      ∧ (printTupleFileText session = printTupleFileText session'
        ↔ session.tupleLine = session'.tupleLine) := by
  refine ⟨decode_printTupleFileText session, ?_, ?_⟩
  · intro h
    rw [← decode_printTupleFileText session, h, decode_printTupleFileText session']
  · intro h
    rw [printTupleFileText, printTupleFileText, tupleArgs_congr h]

example : printTupleFileText ⟨none, 0, 62000042, 1500000, none,
    ⟨0x0A000001, 0xC0A80102, 0x0000FFEEDDCCBBAA, 1, 443, 50000, 0, 6, 3, 180⟩⟩
      = ("10.0.0.1 192.168.1.2 AA:BB:CC:DD:EE:FF 01:00:00:00:00:00 "
        ++ "p6 443 50000 3 180 1.500000 62.000042 62 \n").toList := by
  decide +kernel

end Flow
