/-
MojoRs/Ipcz/LateParcels.lean

What one of two joined nodes refuses of the other.  An end gives its link up
while parcels are on their way to it if its application closes it first, and it
keeps the sublink in its table; each of these parcels is then answered by the
error for an unbound sublink.  Nothing else is refused (`refused_iff`): an end
that has not closed takes whatever comes.

Main result: `refused_iff`.
-/
import MojoRs.Ipcz.JoinedDelivery

namespace MojoRs.Ipcz

open Lib Teardown

/-- What a node makes of a message of the link. -/
def JoinedNodes.answer (c : CentralLink) (depth : Nat) (s : JoinedNodes) (x : LinkSide)
    (m : Nat × RouteMessage × List OwnedFd) :
    EStateM.Result RoutingError RoutingAcceptor Unit :=
  (dispatch depth m.2.1 m.2.2 (c.linkId x)).run (s.node x)

section Answers

variable {c : CentralLink} {t : Route} {s : JoinedNodes} {x : LinkSide}
  {m : Nat × RouteMessage × List OwnedFd} {rest : List (Nat × RouteMessage × List OwnedFd)}

/-- An end with its link takes the next message. -/
theorem JoinedNodes.Simulates.answer_linked (h : s.Simulates c t)
    (hstate : c.buffers.fragment c.state = .ok ()) (hphase : Sound t ∨ Crossed t) (depth : Nat)
    (hflight : s.inFlight c x = m :: rest) (hlinked : (t.ends x).linked = true) :
    ∃ tables, s.answer c (depth + 2) x m = .ok ⟨⟩ { s.node x with tables } := by
  have hwires := h.wire x
  rw [hflight] at hwires
  obtain ⟨msg, msgs, hcarries, -, hwire⟩ := List.forall₂_cons_right_iff.mp hwires
  obtain ⟨r, hr, messages, outbound, closed, rfl, -⟩ := (h.ends x).router
  have hshows : c.Shows x (s.node x).tables messages := ⟨_, _, _, _, hr⟩
  cases hcarries with
  | @parcel n seq fragment data hfragment =>
      obtain rfl := parcel_head hphase hlinked hwire
      obtain ⟨tables, hrun, -⟩ :=
        parcel_passes depth (h.info x) hstate (h.ends x) hshows hlinked hfragment data
      exact ⟨tables, hrun⟩
  | closed =>
      obtain ⟨-, hle⟩ := closed_head hphase hwire
      obtain ⟨tables, hrun, -⟩ :=
        routeClosed_passes (depth + 1) (h.info x) hstate (h.ends x) hshows hlinked hle
      exact ⟨tables, hrun⟩

/-- One that has lost its link refuses it, and has closed. -/
theorem JoinedNodes.Simulates.answer_unlinked (h : s.Simulates c t)
    (hphase : Sound t ∨ Crossed t) (depth : Nat) (hflight : s.inFlight c x = m :: rest)
    (hlinked : (t.ends x).linked = false) :
    (t.ends x).final ≠ none ∧
      s.answer c (depth + 2) x m = .error (.badParcel "parcel for unbound sublink") (s.node x) := by
  have hwires := h.wire x
  rw [hflight] at hwires
  obtain ⟨msg, msgs, hcarries, -, hwire⟩ := List.forall₂_cons_right_iff.mp hwires
  refine ⟨fun hopen => ?_, ?_⟩
  · have hnil := wire_nil_of_unlinked hphase hlinked hopen
    rw [hwire] at hnil
    cases hnil
  · cases hcarries with
    | parcel hfragment =>
        exact parcel_refused depth (h.info x) (h.ends x) hlinked hfragment _
    | closed =>
        obtain ⟨hlinked', -⟩ := closed_head hphase hwire
        exact absurd (hlinked.symm.trans hlinked') Bool.false_ne_true

end Answers

/-- The next message on its way to an end is refused exactly if the end has
released its link.  Then its own application has closed it, the node is left as
it was, and the error is the one for an unbound sublink. -/
theorem refused_iff (c : CentralLink) (sent : LinkSide → Nat) (s : JoinedNodes)
    (h : s.Joined c sent) (depth : Nat) (ops : List JoinedOp) (x : LinkSide)
    (m : Nat × RouteMessage × List OwnedFd) (rest : List (Nat × RouteMessage × List OwnedFd))
    (hflight : (exec (JoinedNodes.step c (depth + 2)) s ops).inFlight c x = m :: rest) :
    ((∃ e n, (exec (JoinedNodes.step c (depth + 2)) s ops).answer c (depth + 2) x m =
        .error e n) ↔ (exec (JoinedNodes.step c (depth + 2)) s ops).Released c x) ∧
      ((exec (JoinedNodes.step c (depth + 2)) s ops).Released c x → .close x ∈ ops ∧
        (exec (JoinedNodes.step c (depth + 2)) s ops).answer c (depth + 2) x m =
          .error (.badParcel "parcel for unbound sublink")
            ((exec (JoinedNodes.step c (depth + 2)) s ops).node x)) := by
  obtain ⟨hsimulates, -⟩ := joined_simulates h depth ops
  have hphase : Sound (exec Route.step (openRoute sent) (ops.map JoinedOp.move)) ∨
      Crossed (exec Route.step (openRoute sent) (ops.map JoinedOp.move)) :=
    (exec_phase (.open (openRoute_open sent)) _).imp And.right And.right
  rw [released_iff_unlinked (hsimulates.ends x)]
  cases hlinked : ((exec Route.step (openRoute sent) (ops.map JoinedOp.move)).ends x).linked with
  | true =>
      obtain ⟨tables, hrun⟩ := hsimulates.answer_linked h.state hphase depth hflight hlinked
      refine ⟨iff_of_false ?_ Bool.noConfusion, fun hfalse => Bool.noConfusion hfalse⟩
      rintro ⟨e, n, herror⟩
      rw [hrun] at herror
      cases herror
  | false =>
      obtain ⟨hclosed, hrun⟩ := hsimulates.answer_unlinked hphase depth hflight hlinked
      refine ⟨iff_of_true ⟨_, _, hrun⟩ rfl, fun _ => ⟨?_, hrun⟩⟩
      by_contra hops
      exact hclosed (exec_open rfl fun hmem => hops (close_mem hmem))

/-- A parcel is on its way to an end that closes. -/
theorem lateParcel_refused : ∃ m rest,
    (exec (JoinedNodes.step initialLink 2) initialNodes [.put .a [7], .close .b]).inFlight
      initialLink .b = m :: rest ∧
    (exec (JoinedNodes.step initialLink 2) initialNodes [.put .a [7], .close .b]).Released
      initialLink .b ∧
    (exec (JoinedNodes.step initialLink 2) initialNodes [.put .a [7], .close .b]).answer
      initialLink 2 .b m = .error (.badParcel "parcel for unbound sublink")
        ((exec (JoinedNodes.step initialLink 2) initialNodes [.put .a [7], .close .b]).node .b) := by
  have hsimulates := (joined_simulates initialNodes_joined 0 [.put .a [7], .close .b]).1
  have hwire := hsimulates.wire .b
  obtain ⟨m, rest, -, -, hflight⟩ := List.forall₂_cons_left_iff.mp hwire
  have hreleased := (released_iff_unlinked (hsimulates.ends .b)).mpr rfl
  refine ⟨m, rest, hflight, hreleased, ?_⟩
  exact ((refused_iff initialLink (fun _ => 0) initialNodes initialNodes_joined 0
    [.put .a [7], .close .b] .b m rest hflight).2 hreleased).2

end MojoRs.Ipcz
