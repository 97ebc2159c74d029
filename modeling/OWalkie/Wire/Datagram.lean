import OWalkie.Lib.Bytes
import OWalkie.Core.SessionManager
import OWalkie.Relay.Hub

/-!
# The UDP datagrams

The relay and the clients write and read the nine header bytes with code of their own:
`parseAudioPacket`, `broadcastMixed` and `sendUDPKeepaliveAck` on the relay, `Pkt.pack`,
`Pkt.unpack` and the senders of the session in the core.  `routeCalls` lists what `routePacket` has
the relay do with a packet, `udpReceived` what the read loop of a session does with a datagram.
-/

namespace OWalkie

/-- The size of the buffers that both sides read into. -/
def maxUDPDatagram : ℕ := 1500

/-- What a read returns of a datagram: the buffer cuts a longer one off. -/
def readDatagram (datagram : List UInt8) : List UInt8 := datagram.take maxUDPDatagram

/-! ## The core -/

namespace Pkt

structure UdpAudioPacket where
  sessionId : UInt32 := 0
  sequence : UInt32 := 0
  signalStrength : UInt8 := 0
  opus : List UInt8 := []
deriving DecidableEq, Repr

def kKeepaliveSignal : UInt8 := 255

def kKeepaliveAckSignal : UInt8 := 254

/-- The header bytes, as `pack`, `sendUdpKeepalive` and `sendUdpTxEof` write them. -/
def header (sessionId sequence : UInt32) (signal : UInt8) : List UInt8 :=
  [((sessionId >>> 24) &&& 0xFF).toUInt8, ((sessionId >>> 16) &&& 0xFF).toUInt8,
    ((sessionId >>> 8) &&& 0xFF).toUInt8, (sessionId &&& 0xFF).toUInt8,
    ((sequence >>> 24) &&& 0xFF).toUInt8, ((sequence >>> 16) &&& 0xFF).toUInt8,
    ((sequence >>> 8) &&& 0xFF).toUInt8, (sequence &&& 0xFF).toUInt8, signal]

def pack (packet : UdpAudioPacket) : Except Result (List UInt8) :=
  if 65535 < packet.opus.length then .error .invalidArg
  else .ok (header packet.sessionId packet.sequence packet.signalStrength ++ packet.opus)

def unpack : List UInt8 → Except Result UdpAudioPacket
  | b₀ :: b₁ :: b₂ :: b₃ :: b₄ :: b₅ :: b₆ :: b₇ :: b₈ :: opus =>
    .ok
      { sessionId := BigEndian.uint32 b₀ b₁ b₂ b₃
        sequence := BigEndian.uint32 b₄ b₅ b₆ b₇
        signalStrength := b₈
        opus := opus }
  | _ => .error .invalidArg

def isKeepaliveAck (buf : List UInt8) (sessionId : UInt32) : Bool :=
  if buf.length ≠ 9 then false
  else
    match unpack buf with
    | .error _ => false
    | .ok pkt => pkt.sessionId == sessionId && pkt.sequence == 0 &&
        pkt.signalStrength == kKeepaliveAckSignal && pkt.opus.isEmpty

/-- The datagram of `sendOpusFrame`, for the number that it draws from `seq`. -/
def sendOpusFrame (sessionId seq : UInt32) (data : List UInt8) (signalStrength : UInt8) :
    Option (List UInt8) :=
  if data = [] ∨ sessionId = 0 then none
  else
    match pack ⟨sessionId, seq, signalStrength, data⟩ with
    | .error _ => none
    | .ok payload => some payload

def sendUdpKeepalive (sessionId : UInt32) : Option (List UInt8) :=
  if sessionId = 0 then none else some (header sessionId 0 kKeepaliveSignal)

/-- The datagram of `sendUdpTxEof`, for the number that it draws from `seq`. -/
def sendUdpTxEof (sessionId seq : UInt32) : Option (List UInt8) :=
  if sessionId = 0 then none else some (header sessionId seq 0)

/-- What the read loop of a session takes a datagram for. -/
inductive Received where
  | keepaliveAck
  | mixedFrame (pkt : UdpAudioPacket)
  | ignored
deriving DecidableEq, Repr

/-- `udpReadLoop`, for one datagram. -/
def udpReceived (sessionId : UInt32) (buf : List UInt8) : Received :=
  if isKeepaliveAck buf sessionId then .keepaliveAck
  else if buf.length ≤ 9 then .ignored
  else
    match unpack buf with
    | .error _ => .ignored
    | .ok pkt => if pkt.opus = [] then .ignored else .mixedFrame pkt

theorem toUInt8_and (v : UInt32) : (v &&& 0xFF).toUInt8 = v.toUInt8 := by
  apply UInt8.toNat_inj.1
  have h255 : UInt32.toNat 0xFF = 2 ^ 8 - 1 := rfl
  rw [UInt32.toNat_toUInt8, UInt32.toNat_toUInt8, UInt32.toNat_and, h255,
    Nat.and_two_pow_sub_one_eq_mod, Nat.mod_mod]

/-- The header that the core writes by hand holds the two numbers in big-endian order. -/
theorem header_eq (sessionId sequence : UInt32) (signal : UInt8) : header sessionId sequence signal =
    BigEndian.putUint32 sessionId ++ (BigEndian.putUint32 sequence ++ [signal]) := by
  simp only [header, toUInt8_and]
  rfl

@[simp] theorem length_header (sessionId sequence : UInt32) (signal : UInt8) :
    (header sessionId sequence signal).length = 9 := rfl

end Pkt

/-! ## The relay -/

/-- `parseAudioPacket`, for the `n` bytes that the reader has put into `buf`. -/
def parseAudioPacket (buf : List UInt8) (n : ℕ) (src : UDPAddr) : Except String AudioPacket :=
  if n < 9 then .error "packet too short"
  else
    .ok
      { sessionID :=
          (BigEndian.uint32 (buf.getD 0 0) (buf.getD 1 0) (buf.getD 2 0) (buf.getD 3 0)).toNat
        seq := (BigEndian.uint32 (buf.getD 4 0) (buf.getD 5 0) (buf.getD 6 0) (buf.getD 7 0)).toNat
        signalStrength := buf.getD 8 0
        opus := (buf.take n).drop 9
        srcAddr := src }

/-- One round of `udpReader`. -/
def udpReader (datagram : List UInt8) (src : UDPAddr) : Except String AudioPacket :=
  let buf := readDatagram datagram
  parseAudioPacket buf buf.length src

def udpKeepaliveAck : UInt8 := 254

/-- The payload that `broadcastMixed` writes to the clients of the channel. -/
def mixedDatagram (mixedOpus : List UInt8) (seq : UInt32) (signalStrength : UInt8) : List UInt8 :=
  BigEndian.putUint32 0 ++ BigEndian.putUint32 seq ++ [signalStrength] ++ mixedOpus

/-- The payload of `sendUDPKeepaliveAck`. -/
def keepaliveAckDatagram (sessionID : UInt32) : List UInt8 :=
  BigEndian.putUint32 sessionID ++ BigEndian.putUint32 0 ++ [udpKeepaliveAck]

/-- What `routePacket` has the hub do. -/
inductive RouteCall where
  | markTxEOF (sessionID : SessionID)
  | sendUDPKeepaliveAck (sessionID : SessionID) (addr : UDPAddr)
  | sendLatestFrame (ch : ChannelName) (sessionID : SessionID)
  | push (ch : ChannelName) (pkt : AudioPacket)
deriving DecidableEq

namespace RelayHub

/-- `routePacket`, after it has found the client. -/
def routeCalls (c : Client) (pkt : AudioPacket) : List RouteCall :=
  if pkt.isUDPEOFMarker then [.markTxEOF pkt.sessionID]
  else if pkt.opus = [] then
    if pkt.seq = 0 ∧ pkt.signalStrength = udpKeepaliveSignal then
      .sendUDPKeepaliveAck pkt.sessionID pkt.srcAddr ::
        if c.channel = "" then [] else [.sendLatestFrame c.channel pkt.sessionID]
    else []
  else if c.channel = "" then [] else [.push c.channel pkt]

end RelayHub

/-! ## What each side reads of the other's datagrams -/

theorem parseAudioPacket_header (sessionId sequence : UInt32) (signal : UInt8) (opus : List UInt8)
    {n : ℕ} (hn : 9 ≤ n) (src : UDPAddr) :
    parseAudioPacket (Pkt.header sessionId sequence signal ++ opus) n src =
      .ok ⟨sessionId.toNat, sequence.toNat, signal, opus.take (n - 9), src⟩ := by
  obtain ⟨m, rfl⟩ := Nat.exists_eq_add_of_le' hn
  unfold parseAudioPacket
  rw [if_neg (by omega), Pkt.header_eq]
  simp [BigEndian.putUint32, BigEndian.uint32_putUint32]

theorem readDatagram_header (sessionId sequence : UInt32) (signal : UInt8) (opus : List UInt8) :
    readDatagram (Pkt.header sessionId sequence signal ++ opus) =
      Pkt.header sessionId sequence signal ++ opus.take 1491 := by
  rw [readDatagram, List.take_append, Pkt.length_header,
    List.take_of_length_le (l := Pkt.header _ _ _) (by rw [Pkt.length_header]; decide)]
  rfl

/-- The relay reads the header that the core writes, and as much of the payload as fits. -/
theorem udpReader_header (sessionId sequence : UInt32) (signal : UInt8) (opus : List UInt8)
    (src : UDPAddr) : udpReader (Pkt.header sessionId sequence signal ++ opus) src =
      .ok ⟨sessionId.toNat, sequence.toNat, signal, opus.take 1491, src⟩ := by
  rw [udpReader, readDatagram_header, parseAudioPacket_header _ _ _ _ (by simp) src]
  simp

theorem readDatagram_of_le {datagram : List UInt8} (h : datagram.length ≤ maxUDPDatagram) :
    readDatagram datagram = datagram := List.take_of_length_le h

theorem length_mixedDatagram (opus : List UInt8) (seq : UInt32) (signal : UInt8) :
    (mixedDatagram opus seq signal).length = opus.length + 9 := by
  simp [mixedDatagram, BigEndian.putUint32]

/-- The core reads the header that the relay writes, and the payload behind it. -/
theorem unpack_putUint32 (sessionID seq : UInt32) (signal : UInt8) (opus : List UInt8) :
    Pkt.unpack (BigEndian.putUint32 sessionID ++ BigEndian.putUint32 seq ++ [signal] ++ opus) =
      .ok ⟨sessionID, seq, signal, opus⟩ := by
  simp [BigEndian.putUint32, Pkt.unpack, BigEndian.uint32_putUint32]

theorem readDatagram_mixedDatagram (opus : List UInt8) (seq : UInt32) (signal : UInt8) :
    readDatagram (mixedDatagram opus seq signal) = mixedDatagram (opus.take 1491) seq signal := by
  simp [readDatagram, maxUDPDatagram, mixedDatagram, BigEndian.putUint32]

/-- An acknowledgement that is longer than its header is none. -/
theorem isKeepaliveAck_of_length {buf : List UInt8} (h : buf.length ≠ 9) (sessionId : UInt32) :
    Pkt.isKeepaliveAck buf sessionId = false := if_pos h

theorem isKeepaliveAck_ack (sessionID : UInt32) :
    Pkt.isKeepaliveAck (keepaliveAckDatagram sessionID) sessionID = true := by
  have hread := unpack_putUint32 sessionID 0 udpKeepaliveAck []
  rw [List.append_nil] at hread
  rw [Pkt.isKeepaliveAck, if_neg (by simp [keepaliveAckDatagram]), keepaliveAckDatagram, hread]
  simp [udpKeepaliveAck, Pkt.kKeepaliveAckSignal]

/-! ## The two sides agree -/

/-- What the senders of a session send. -/
inductive DatagramKind where
  | audio
  | keepalive
  | txEof
deriving DecidableEq

/-- What the relay has to do with a packet of the kind. -/
def DatagramKind.calls (c : Client) (pkt : AudioPacket) : DatagramKind → List RouteCall
  | audio => if c.channel = "" then [] else [.push c.channel pkt]
  | keepalive =>
    .sendUDPKeepaliveAck pkt.sessionID pkt.srcAddr ::
      if c.channel = "" then [] else [.sendLatestFrame c.channel pkt.sessionID]
  | txEof => [.markTxEOF pkt.sessionID]

/-- The relay reads the datagram as a packet of the session and routes it as the kind. -/
def RoutedAs (sessionId : UInt32) (datagram : List UInt8) (kind : DatagramKind) : Prop :=
  ∀ c src, ∃ pkt, udpReader datagram src = .ok pkt ∧ pkt.sessionID = sessionId.toNat ∧
    pkt.srcAddr = src ∧ RelayHub.routeCalls c pkt = kind.calls c pkt

theorem routedAs_audio (sessionId seq : UInt32) (signal : UInt8) {data : List UInt8}
    (hdata : data ≠ []) : RoutedAs sessionId (Pkt.header sessionId seq signal ++ data) .audio := by
  intro c src
  refine ⟨_, udpReader_header sessionId seq signal data src, rfl, rfl, ?_⟩
  have htake : data.take 1491 ≠ [] := by simpa using hdata
  simp [RelayHub.routeCalls, AudioPacket.isUDPEOFMarker, DatagramKind.calls, htake]

theorem routedAs_keepalive (sessionId : UInt32) :
    RoutedAs sessionId (Pkt.header sessionId 0 Pkt.kKeepaliveSignal) .keepalive := by
  intro c src
  refine ⟨_, by simpa using udpReader_header sessionId 0 Pkt.kKeepaliveSignal [] src, rfl, rfl, ?_⟩
  simp [RelayHub.routeCalls, AudioPacket.isUDPEOFMarker, DatagramKind.calls, Pkt.kKeepaliveSignal,
    udpKeepaliveSignal]

theorem routedAs_txEof (sessionId : UInt32) {seq : UInt32} (hseq : seq ≠ 0) :
    RoutedAs sessionId (Pkt.header sessionId seq 0) .txEof := by
  intro c src
  refine ⟨_, by simpa using udpReader_header sessionId seq 0 [] src, rfl, rfl, ?_⟩
  have hpos : 0 < seq.toNat := Nat.pos_of_ne_zero fun h => hseq (UInt32.toNat_inj.1 h)
  simp [RelayHub.routeCalls, AudioPacket.isUDPEOFMarker, DatagramKind.calls, hpos]

theorem udpReceived_mixed (sessionId seq : UInt32) (signal : UInt8) {opus : List UInt8}
    (hopus : opus ≠ []) :
    Pkt.udpReceived sessionId (readDatagram (mixedDatagram opus seq signal)) =
      .mixedFrame ⟨0, seq, signal, opus.take 1491⟩ := by
  have htake : opus.take 1491 ≠ [] := by simpa using hopus
  have hlen : 0 < (opus.take 1491).length := List.length_pos_iff.2 htake
  have hread := unpack_putUint32 0 seq signal (opus.take 1491)
  rw [readDatagram_mixedDatagram]
  unfold Pkt.udpReceived
  rw [isKeepaliveAck_of_length (by rw [length_mixedDatagram]; omega), if_neg (by simp),
    if_neg (by rw [length_mixedDatagram]; omega), mixedDatagram, hread]
  simp [htake]

/-- Each side reads back what the other wrote, and takes every datagram that the other sends for
what it is. -/
theorem wire_format_agrees :
    (∀ (packet : Pkt.UdpAudioPacket) (src : UDPAddr), packet.opus.length ≤ 1491 →
      ∃ datagram, Pkt.pack packet = .ok datagram ∧
        udpReader datagram src = .ok ⟨packet.sessionId.toNat, packet.sequence.toNat,
          packet.signalStrength, packet.opus, src⟩) ∧
    (∀ (seq : UInt32) (signal : UInt8) (opus : List UInt8), opus.length ≤ 1491 →
      Pkt.unpack (readDatagram (mixedDatagram opus seq signal)) = .ok ⟨0, seq, signal, opus⟩) ∧
    ∀ sessionId : UInt32, sessionId ≠ 0 →
      (∀ (seq : UInt32) (signal : UInt8) (data : List UInt8), data ≠ [] → data.length ≤ 65535 →
        ∃ datagram, Pkt.sendOpusFrame sessionId seq data signal = some datagram ∧
          RoutedAs sessionId datagram .audio) ∧
      (∃ datagram, Pkt.sendUdpKeepalive sessionId = some datagram ∧
        RoutedAs sessionId datagram .keepalive) ∧
      (∀ seq : UInt32, seq ≠ 0 → ∃ datagram, Pkt.sendUdpTxEof sessionId seq = some datagram ∧
        RoutedAs sessionId datagram .txEof) ∧
      (∀ (seq : UInt32) (signal : UInt8) (opus : List UInt8), opus ≠ [] →
        Pkt.udpReceived sessionId (readDatagram (mixedDatagram opus seq signal)) =
          .mixedFrame ⟨0, seq, signal, opus.take 1491⟩) ∧
      Pkt.udpReceived sessionId (readDatagram (keepaliveAckDatagram sessionId)) =
        .keepaliveAck := by
  refine ⟨?_, ?_, fun sessionId hid => ⟨?_, ?_, ?_, ?_, ?_⟩⟩
  · intro packet src hlen
    refine ⟨_, if_neg (by omega), ?_⟩
    rw [udpReader_header, List.take_of_length_le hlen]
  · intro seq signal opus hlen
    rw [readDatagram_mixedDatagram, List.take_of_length_le hlen]
    exact unpack_putUint32 0 seq signal opus
  · intro seq signal data hdata hlen
    refine ⟨_, ?_, routedAs_audio sessionId seq signal hdata⟩
    rw [Pkt.sendOpusFrame, if_neg (not_or.2 ⟨hdata, hid⟩), Pkt.pack, if_neg (by simpa using hlen)]
  · exact ⟨_, if_neg hid, routedAs_keepalive sessionId⟩
  · intro seq hseq
    exact ⟨_, if_neg hid, routedAs_txEof sessionId hseq⟩
  · intro seq signal opus hopus
    exact udpReceived_mixed sessionId seq signal hopus
  · have hlen : (keepaliveAckDatagram sessionId).length = 9 := rfl
    rw [readDatagram_of_le (by rw [hlen]; decide), Pkt.udpReceived, isKeepaliveAck_ack, if_pos rfl]

/-- The frame of the core's own test, and the marker that follows it. -/
theorem wire_format_agrees_test :
    (∃ datagram, Pkt.pack ⟨0x01020304, 7, 255, [1, 2, 3]⟩ = .ok datagram ∧
      udpReader datagram ⟨7, 40001⟩ = .ok ⟨0x01020304, 7, 255, [1, 2, 3], ⟨7, 40001⟩⟩) ∧
    ∃ datagram, Pkt.sendUdpTxEof 0x01020304 9 = some datagram ∧
      RoutedAs 0x01020304 datagram .txEof :=
  ⟨wire_format_agrees.1 _ _ (by decide),
    (wire_format_agrees.2.2 0x01020304 (by decide)).2.2.1 9 (by decide)⟩

end OWalkie
