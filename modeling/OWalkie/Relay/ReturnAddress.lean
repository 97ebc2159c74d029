import OWalkie.Lib.Register
import OWalkie.Relay.Hub

/-!
# The return address of a client

`udp_hello` and the datagrams of a session write the same field, and whichever is handled last
wins.  `return_addr_iff` says when the source of the last datagram is still there.
-/

namespace OWalkie

open Run

namespace RelayHub

/-- The address that the step takes from a `udp_hello` of the connection. -/
def helloAddr (k : ConnID) (s : RelayHub) : HubAction → Option UDPAddr
  | .udpHello k' addr =>
    if k' = k ∧ s.Waiting k ∧ 0 < addr.port ∧ addr.port ≤ 65535 then some addr else none
  | _ => none

/-- The source address of the datagram that the step routes for the connection. -/
def routedAddr (k : ConnID) (s : RelayHub) : HubAction → Option UDPAddr
  | .routePacket pkt =>
    if ¬ s.Calling .reader ∧ s.clients pkt.sessionID = some k then some pkt.srcAddr else none
  | _ => none

theorem Skips.helloAddr {s : RelayHub} {k : ConnID} {a : HubAction} (h : s.Skips k a) :
    helloAddr k s a = none := by
  cases a with
  | udpHello k' addr => exact if_neg fun hk => h hk.1 hk.2
  | _ => rfl

theorem Skips.routedAddr {s : RelayHub} {k : ConnID} {a : HubAction} (h : s.Skips k a) :
    routedAddr k s a = none := by
  cases a with
  | routePacket pkt => exact if_neg fun hk => h hk.1 hk.2
  | _ => rfl

/-- The address of a client is a register that `udp_hello` and the datagrams write. -/
theorem isRegister_udpAddr (k : ConnID) :
    IsRegister step (fun s => (s.client k).udpAddr)
      (fun s a => (helloAddr k s a).or (routedAddr k s a)) := by
  intro s a
  have hstep := clientStep s a k
  dsimp only
  generalize (step s a).client k = c at hstep ⊢
  cases hstep with
  | udpHello addr h hport => simp [helloAddr, h, hport]
  | routePacket pkt hreader h => simp [helloAddr, routedAddr, hreader, h]
  | same a h => rw [h.helloAddr, h.routedAddr, Option.none_or, Option.none_or]
  | _ => rfl

/-- After the last datagram that was routed for a connection, its source is the return address if
and only if no `udp_hello` has been handled since, or the last one gave that address too. -/
theorem return_addr_iff {unix : ℕ} {k : ConnID} {pre post : List HubAction} {pkt : AudioPacket}
    (hrouted : routedAddr k (after step (new unix) pre) (.routePacket pkt) = some pkt.srcAddr)
    (hlast : Along step (fun s a => routedAddr k s a = none)
      (after step (new unix) (pre ++ [.routePacket pkt])) post) :
    ((after step (new unix) (pre ++ .routePacket pkt :: post)).client k).udpAddr =
        some pkt.srcAddr ↔
      ∀ addr ∈ lastWrite step (helloAddr k) (after step (new unix) (pre ++ [.routePacket pkt]))
        post, addr = pkt.srcAddr := by
  rw [after_append]
  rw [after_snoc] at hlast ⊢
  have hhello : lastWrite step (fun s a => (helloAddr k s a).or (routedAddr k s a))
      (step (after step (new unix) pre) (.routePacket pkt)) post =
        lastWrite step (helloAddr k) (step (after step (new unix) pre) (.routePacket pkt)) post :=
    lastWrite_congr fun before a rest heq => by
      dsimp only
      rw [hlast before a rest heq, Option.or_none]
  rw [← hhello]
  exact (isRegister_udpAddr k).eq_iff (by simp [helloAddr, hrouted]) post

/-- The `udp_hello` is handled first. -/
theorem return_addr_punch_last :
    ((after step (new 0) (firstJoins ++ [.udpHello 1 ⟨7, 5000⟩] ++
      .routePacket firstPunch :: [])).client 1).udpAddr = some ⟨7, 40001⟩ :=
  (return_addr_iff (by decide) (by decide)).2 (by decide)

/-- The `udp_hello` names the local port and is handled after the punch. -/
theorem return_addr_hello_last :
    let s := after step (new 0) (firstJoins ++ .routePacket firstPunch :: [.udpHello 1 ⟨7, 5000⟩])
    routedAddr 1 (after step (new 0) firstJoins) (.routePacket firstPunch) = some ⟨7, 40001⟩ ∧
      (s.client 1).udpAddr = some ⟨7, 5000⟩ ∧ (s.client 1).udpAddr ≠ some firstPunch.srcAddr := by
  decide

end RelayHub

end OWalkie
