/-
MojoRs/Ipcz/Introductions.lean

Introductions over whole runs (`establish_link`, `on_accept_introduction` and
`on_reject_introduction` in `routing.rs`).  A run is any order of requests for
links to nodes, of replies of the broker, and of changes by whatever else the
node does.

The state of a run has a ghost, the requests for each node since the last reply
about it.  The table of the node is to say the same (`InSync`), and a reply is
to complete each of them in its turn (`Fulfilled`): over the introduced link if
the broker accepted, by disconnecting the route if it rejected; a request whose
router is lost is dropped.

The node does this in a run exactly if every reply finds things as
`CanComplete` says.  There is one slot for an introduced link, so only the
first accepted node gets one; and a request that fails ends the loop, so those
behind it are lost.

Main results: `fulfilled_iff`, `introductions_complete_iff`, `receive_between`.
-/
import MojoRs.Ipcz.BypassAuthority
import MojoRs.Ipcz.IntroductionTurns
import MojoRs.Lib.Run

namespace MojoRs.Ipcz

open Function (update)
open Lib RouteTables

/-! ### Replies -/

/-- A reply of the broker to a `RequestIntroduction`. -/
inductive IntroReply
  | accept (transportIndex memoryIndex : Nat) (fds : List OwnedFd)
  | reject
  deriving DecidableEq, Repr

/-- The message of a reply about a node. -/
def IntroReply.arrival (name : NodeName) : IntroReply → Arrival
  | .accept transportIndex memoryIndex fds =>
      ⟨.acceptIntroduction name transportIndex memoryIndex, fds, linkIdBroker⟩
  | .reject => ⟨.rejectIntroduction name, [], linkIdBroker⟩

/-- The tables without the requests for a node. -/
def RouteTables.unqueue (t : RouteTables) (name : NodeName) : RouteTables :=
  { t with pendingIntroductions := update t.pendingIntroductions name [] }

/-- The node with an introduced link to node `name`. -/
def RoutingAcceptor.adoptIntroduced (s : RoutingAcceptor) (name : NodeName) : RoutingAcceptor :=
  { s with
    info := { s.info with
      links := update s.info.links linkIdIntroduced (some ⟨name, some .empty⟩)
      linkOrder := s.info.linkOrder ++ [linkIdIntroduced] }
    tables := s.tables.setChannel linkIdIntroduced ⟨[], 0, false⟩ }

namespace IntroReply

/-- The node when the first request has its turn. -/
def opened (name : NodeName) (s : RoutingAcceptor) : IntroReply → RoutingAcceptor
  | .accept .. => s.adoptIntroduced name
  | .reject => s

/-- What a reply does about a request. -/
def Completes (info : NodeInfo) (depth : Nat) (reply : IntroReply) (req : PendingIntroRequest)
    (t t' : RouteTables) : Prop :=
  Dropped req t t' ∨
    match reply with
    | .accept .. => t.Bypassed info depth linkIdIntroduced req t'
    | .reject => Disconnected req t t'

/-- The turn of a request in the loop of a reply. -/
def Turn (info : NodeInfo) (depth : Nat) (name : NodeName) (reply : IntroReply)
    (req : PendingIntroRequest) (t t' : RouteTables) : Prop :=
  (completePendingIntro info (routerFlush info depth) name req).run t = .ok ⟨⟩ t' ∧
    reply.Completes info depth req t t'

end IntroReply

/-- The reply about node `name` led to `s'` without an error, and completed the
requests `reqs`, each in its turn; nothing else was taken from the table. -/
structure RoutingAcceptor.Fulfilled (depth : Nat) (s : RoutingAcceptor) (name : NodeName)
    (reply : IntroReply) (reqs : List PendingIntroRequest) (s' : RoutingAcceptor) : Prop where
  returns : (dispatch depth (reply.arrival name).message (reply.arrival name).fds
    (reply.arrival name).linkId).run s = .ok ⟨⟩ s'
  link : reply ≠ .reject → ∃ l ∈ s'.info.links linkIdIntroduced, l.remoteName = name
  turns : InTurn (reply.Turn s'.info depth name) reqs
    ((reply.opened name s).tables.unqueue name) s'.tables
  removed : s'.tables.pendingIntroductions = update s.tables.pendingIntroductions name []

/-- The kernel lets the two descriptors of an introduced link be taken over, and the
memory is large enough. -/
structure RoutingAcceptor.Adoptable (s : RoutingAcceptor) (transport memory : OwnedFd) : Prop where
  dup : s.info.fdError .dup transport = none ∧ s.info.fdError .dup memory = none
  socket : s.info.fdError .setNonblocking transport = none
  mapped : s.info.fdError .fstat memory = none ∧ s.info.fdError .mmap memory = none
  size : primaryBufferSize ≤ memory.size

/-- How a reply has to find things so that all requests can be completed.  To
accept, the slot of the introduced link is free, its descriptors can be adopted,
and each request can be bypassed or dropped when its turn comes.  To reject, the
routers are all there, and no two requests are about one router. -/
def IntroReply.CanComplete (depth : Nat) (s : RoutingAcceptor) (name : NodeName)
    (reqs : List PendingIntroRequest) : IntroReply → Prop
  | .accept transportIndex memoryIndex fds =>
      (s.info.links linkIdIntroduced).isNone = true ∧
        (∃ transport ∈ fds[transportIndex]?, ∃ memory ∈ fds[memoryIndex]?,
          s.Adoptable transport memory) ∧
        let info := (s.adoptIntroduced name).info
        EachTurn (completePendingIntro info (routerFlush info depth) name)
          (fun req t => t.CanDrop info linkIdIntroduced req ∨
            t.CanBypass info depth linkIdIntroduced req) reqs
          ((s.adoptIntroduced name).tables.unqueue name)
  | .reject =>
      (reqs.map (·.rid)).Nodup ∧ ∀ req ∈ reqs, (s.tables.routers req.rid).isSome = true

/-! ### Runs -/

/-- The node, and as a ghost the requests for each node since the last reply
about it. -/
structure IntroState where
  node : RoutingAcceptor
  waiting : NodeName → List PendingIntroRequest

/-- What happens.  A request comes from some depth of the flushes. -/
inductive IntroOp
  | request (depth : Nat) (name : NodeName) (req : PendingIntroRequest)
  | reply (name : NodeName) (reply : IntroReply)
  /-- What else the node does. -/
  | other (node : RoutingAcceptor)

/-- The requests are as before, and so are the nodes that have links. -/
structure RoutingAcceptor.Apart (s s' : RoutingAcceptor) : Prop where
  requests : s'.tables.pendingIntroductions = s.tables.pendingIntroductions
  links : ∀ name, linkIdForNode s'.info name = linkIdForNode s.info name

/-- A request for a link, whether it returned or failed. -/
def RoutingAcceptor.establish (depth : Nat) (s : RoutingAcceptor) (name : NodeName)
    (req : PendingIntroRequest) : RoutingAcceptor :=
  endState ((inTables fun info => establishLink info (routerFlush info depth) name req).run s)

namespace IntroState

/-- A node that waits for no introduction. -/
def start (s : RoutingAcceptor) : IntroState :=
  ⟨{ s with tables := { s.tables with pendingIntroductions := fun _ => [] } }, fun _ => []⟩

/-- One request, or one message from the broker. -/
def step (depth : Nat) (s : IntroState) : IntroOp → IntroState
  | .request depth name req =>
      { node := s.node.establish depth name req
        waiting :=
          if (linkIdForNode s.node.info name).isSome then s.waiting
          else update s.waiting name (s.waiting name ++ [req]) }
  | .reply name reply =>
      { node := s.node.receive depth (reply.arrival name)
        waiting := update s.waiting name [] }
  | .other node => { s with node }

/-- What else the node does leaves the requests alone. -/
def Legal (s : IntroState) : IntroOp → Prop
  | .other node => s.node.Apart node
  | _ => True

/-- The table of the node has the requests that wait. -/
def InSync (s : IntroState) : Prop := s.node.tables.pendingIntroductions = s.waiting

/-- A reply completes all requests that wait for it. -/
def Fulfils (depth : Nat) (s : IntroState) : IntroOp → Prop
  | .reply name reply =>
      s.waiting name ≠ [] → ∃ s', s.node.Fulfilled depth name reply (s.waiting name) s'
  | _ => True

/-- A reply finds things so that it can complete all requests that wait for it. -/
def CanFulfil (depth : Nat) (s : IntroState) : IntroOp → Prop
  | .reply name reply => s.waiting name ≠ [] → reply.CanComplete depth s.node name (s.waiting name)
  | _ => True

end IntroState

/-! ### The requests in the table -/

section Table

variable {info : NodeInfo} {K : NodeName → List PendingIntroRequest}

/-- A flush leaves the requests alone. -/
theorem introductions_frame (K : NodeName → List PendingIntroRequest) :
    FlushFrame (fun t => t.pendingIntroductions = K) fun _ => True where
  holds _ _ := .any _
  quiet hK h := h.introductions.trans hK
  setRouter _ _ hK _ := hK
  note _ _ hK := hK
  dropRouter _ hK := hK
  send _ _ _ hK _ := hK
  log _ _ hK := hK

theorem send_introductions (linkId : Nat) (msg : RouteMessage) (fds : List OwnedFd) :
    Yields (fun t => t.pendingIntroductions = K) (sendLinkMessageOn info linkId msg fds)
      fun _ => True :=
  yields_send linkId msg fds fun _ hK => hK

theorem completePendingIntro_introductions (depth : Nat) (name : NodeName)
    (req : PendingIntroRequest) :
    Yields (fun t => t.pendingIntroductions = K)
      (completePendingIntro info (routerFlush info depth) name req) fun _ => True :=
  completePendingIntro_frame (introductions_frame K)
    (fun _ force => (introductions_frame K).routerFlush depth force)
    (fun _ _ _ _ _ _ => send_introductions _ _ _) name req

/-- A request waits exactly if there is no link to its node. -/
theorem establishLink_introductions (depth : Nat) (name : NodeName) (req : PendingIntroRequest)
    (t : RouteTables) :
    (endState ((establishLink info (routerFlush info depth) name req).run t)).pendingIntroductions =
      if (linkIdForNode info name).isSome then t.pendingIntroductions
      else update t.pendingIntroductions name (t.pendingIntroductions name ++ [req]) := by
  unfold establishLink
  split_ifs with hlink
  · exact (completePendingIntro_introductions depth name req t rfl).1
  · rw [run_get_bind]
    generalize hqueued : t.pendingIntroductions name ++ [req] = queued
    have htail : Yields
        (fun t' : RouteTables =>
          t'.pendingIntroductions = update t.pendingIntroductions name queued)
        (if (t.pendingIntroductions name).isEmpty then
          sendLinkMessageOn info linkIdBroker (.requestIntroduction name) [] else pure ())
        fun _ => True := by
      split_ifs
      · exact send_introductions _ _ _
      · exact yields_pure trivial
    rw [run_bind_of_ok (run_modify _ _), hqueued]
    exact (htail _ rfl).1

end Table

/-! ### The introduced link -/

section Link

variable {s s' : RoutingAcceptor} {name : NodeName}

/-- The link is the one to the node. -/
theorem linkIdForNode_introduced (h : linkIdForNode s.info name = none) :
    linkIdForNode (s.adoptIntroduced name).info name = some linkIdIntroduced := by
  unfold linkIdForNode at h ⊢
  simp only [show (s.adoptIntroduced name).info.brokerName = s.info.brokerName from rfl,
    show (s.adoptIntroduced name).info.referrerName = s.info.referrerName from rfl]
  by_cases hbroker : name = s.info.brokerName
  · rw [if_pos hbroker] at h
    cases h
  by_cases hreferrer : s.info.referrerName.isValid = true ∧ name = s.info.referrerName
  · rw [if_neg hbroker, if_pos hreferrer] at h
    cases h
  rw [if_neg hbroker, if_neg hreferrer] at h ⊢
  have hold := List.find?_eq_none.mp h
  show (s.info.linkOrder ++ [linkIdIntroduced]).find? _ = _
  rw [List.find?_append]
  cases hfind : List.find? _ s.info.linkOrder with
  | none => simp [RoutingAcceptor.adoptIntroduced, linkIdIntroduced, linkIdBroker]
  | some id =>
      have hid : id = linkIdIntroduced := by
        by_contra hid
        have hmatch := List.find?_some hfind
        simp only [RoutingAcceptor.adoptIntroduced, Function.update_of_ne hid] at hmatch
        exact hold id (List.mem_of_find?_eq_some hfind) hmatch
      rw [hid]
      rfl

/-- No other node got one. -/
theorem linkIdForNode_adoptIntroduced (hfree : s.info.links linkIdIntroduced = none)
    {other : NodeName} (h : other ≠ name) :
    linkIdForNode (s.adoptIntroduced name).info other = linkIdForNode s.info other := by
  have hlink : ∀ id, ((s.adoptIntroduced name).info.links id).any (fun l => l.remoteName == other) =
      (s.info.links id).any fun l => l.remoteName == other := by
    intro id
    by_cases hid : id = linkIdIntroduced
    · subst hid
      simp [RoutingAcceptor.adoptIntroduced, hfree, Ne.symm h]
    · simp [RoutingAcceptor.adoptIntroduced, hid]
  unfold linkIdForNode
  simp only [hlink]
  simp [RoutingAcceptor.adoptIntroduced, List.find?_append, hfree]

end Link

/-! ### One reply -/

section Reply

variable {s s' : RoutingAcceptor} {depth : Nat} {name : NodeName}

/-- The requests are taken from the table and then completed in turn. -/
theorem completeIntroductions_ok :
    (completeIntroductions depth name).run s = .ok ⟨⟩ s' ↔
      ∃ t, InTurn (fun req t t' =>
          (completePendingIntro s.info (routerFlush s.info depth) name req).run t = .ok ⟨⟩ t')
        (s.tables.pendingIntroductions name) (s.tables.unqueue name) t ∧
        s' = { s with tables := t } := by
  constructor
  · intro h
    have hrun := inTables_ok h
    have hend : s' = { s with tables := s'.tables } :=
      (EStateM.Result.ok.inj (h.symm.trans (inTables_of_ok hrun))).2
    rw [run_get_bind, run_bind_of_ok (run_modify _ _)] at hrun
    exact ⟨s'.tables, forM_eq_ok.mp hrun, hend⟩
  · rintro ⟨t, hturns, rfl⟩
    refine inTables_of_ok ?_
    rw [run_get_bind, run_bind_of_ok (run_modify _ _)]
    exact forM_eq_ok.mpr hturns

/-- The loop adds no requests. -/
theorem inTurn_introductions {info : NodeInfo} {reqs : List PendingIntroRequest} {t t' : RouteTables}
    (h : InTurn (fun req t t' =>
      (completePendingIntro info (routerFlush info depth) name req).run t = .ok ⟨⟩ t') reqs t t') :
    t'.pendingIntroductions = t.pendingIntroductions := by
  induction h with
  | nil t => rfl
  | cons hturn _ ih =>
      exact ih.trans ((completePendingIntro_introductions depth name _).ok rfl hturn)

/-- An introduced link is there already: nothing happens. -/
theorem onAcceptIntroduction_taken (h : (s.info.links linkIdIntroduced).isNone = false)
    (transportIndex memoryIndex : Nat) (fds : List OwnedFd) :
    (onAcceptIntroduction depth name transportIndex memoryIndex fds).run s = .ok ⟨⟩ s := by
  unfold onAcceptIntroduction
  rw [run_get_bind]
  dsimp only
  rw [if_neg (ne_true_of_eq_false h)]
  rfl

/-- What follows a call on a descriptor runs if the call succeeds. -/
theorem callFd_bind_ok {info : NodeInfo} {call : FdCall} {fd : OwnedFd}
    {f : Unit → Except RoutingError Unit} :
    (info.callFd call fd >>= f) = .ok () ↔ info.fdError call fd = none ∧ f () = .ok () := by
  unfold NodeInfo.callFd
  cases info.fdError call fd with
  | some e => exact iff_of_false nofun fun h => nomatch h.1
  | none => exact ⟨fun h => ⟨rfl, h⟩, And.right⟩

theorem callFd_ok {info : NodeInfo} {call : FdCall} {fd : OwnedFd} :
    info.callFd call fd = .ok () ↔ info.fdError call fd = none := by
  unfold NodeInfo.callFd
  cases info.fdError call fd with
  | some e => exact iff_of_false nofun nofun
  | none => exact iff_of_true rfl rfl

/-- The descriptors of the link have to be there, and to be adopted. -/
theorem adoptIntroducedFds_ok {transportIndex memoryIndex : Nat} {fds : List OwnedFd} :
    adoptIntroducedFds s.info transportIndex memoryIndex fds = .ok () ↔
      ∃ transport ∈ fds[transportIndex]?, ∃ memory ∈ fds[memoryIndex]?,
        s.Adoptable transport memory := by
  unfold adoptIntroducedFds
  constructor
  · intro h
    split at h
    · cases h
    next transport htransport =>
      obtain ⟨hdup, h⟩ := callFd_bind_ok.mp h
      split at h
      · cases h
      next memory hmemory =>
        obtain ⟨hdup', h⟩ := callFd_bind_ok.mp h
        obtain ⟨hsocket, h⟩ := callFd_bind_ok.mp h
        obtain ⟨hstat, h⟩ := callFd_bind_ok.mp h
        split_ifs at h with hsize
        exact ⟨transport, htransport, memory, hmemory, ⟨hdup, hdup'⟩, hsocket,
          ⟨hstat, callFd_ok.mp h⟩, Nat.le_of_not_gt hsize⟩
  · rintro ⟨transport, htransport, memory, hmemory, ⟨hdup, hdup'⟩, hsocket, ⟨hstat, hmap⟩, hsize⟩
    rw [Option.mem_def.mp htransport, Option.mem_def.mp hmemory]
    dsimp only
    rw [callFd_ok.mpr hdup, callFd_ok.mpr hdup', callFd_ok.mpr hsocket, callFd_ok.mpr hstat,
      callFd_ok.mpr hmap]
    exact if_neg (Nat.not_lt.mpr hsize)

theorem onAcceptIntroduction_run (h : (s.info.links linkIdIntroduced).isNone = true)
    {transportIndex memoryIndex : Nat} {fds : List OwnedFd}
    (hfds : adoptIntroducedFds s.info transportIndex memoryIndex fds = .ok ()) :
    (onAcceptIntroduction depth name transportIndex memoryIndex fds).run s =
      (completeIntroductions depth name).run (s.adoptIntroduced name) := by
  unfold onAcceptIntroduction
  rw [run_get_bind]
  dsimp only
  rw [if_pos h, hfds]
  rfl

/-- Otherwise nothing is changed. -/
theorem onAcceptIntroduction_refused (h : (s.info.links linkIdIntroduced).isNone = true)
    {transportIndex memoryIndex : Nat} {fds : List OwnedFd} {e : RoutingError}
    (hfds : adoptIntroducedFds s.info transportIndex memoryIndex fds = .error e) :
    (onAcceptIntroduction depth name transportIndex memoryIndex fds).run s = .error e s := by
  unfold onAcceptIntroduction
  rw [run_get_bind]
  dsimp only
  rw [if_pos h, hfds]
  rfl

theorem onAcceptIntroduction_fds (h : (s.info.links linkIdIntroduced).isNone = true)
    {transportIndex memoryIndex : Nat} {fds : List OwnedFd}
    (hrun : (onAcceptIntroduction depth name transportIndex memoryIndex fds).run s = .ok ⟨⟩ s') :
    adoptIntroducedFds s.info transportIndex memoryIndex fds = .ok () := by
  cases hfds : adoptIntroducedFds s.info transportIndex memoryIndex fds with
  | ok _ => rfl
  | error e => cases (onAcceptIntroduction_refused h hfds).symm.trans hrun

/-- All turns come as they should exactly where each can. -/
theorem exists_turns_iff (reply : IntroReply) (hlink : linkIdForNode (reply.opened name s).info name =
      if reply = .reject then none else some linkIdIntroduced) (reqs : List PendingIntroRequest)
    (t : RouteTables) :
    (∃ t', InTurn (reply.Turn (reply.opened name s).info depth name) reqs t t') ↔
      EachTurn (completePendingIntro (reply.opened name s).info
          (routerFlush (reply.opened name s).info depth) name)
        (fun req t =>
          match reply with
          | .accept .. => t.CanDrop (reply.opened name s).info linkIdIntroduced req ∨
              t.CanBypass (reply.opened name s).info depth linkIdIntroduced req
          | .reject => (t.routers req.rid).isSome = true) reqs t := by
  refine exists_inTurn_iff fun req t => ?_
  unfold completePendingIntro
  rw [hlink]
  cases reply with
  | accept transportIndex memoryIndex fds => exact bypass_iff
  | reject => exact disconnect_iff

/-- With the requests that wait in the table, the loop of a reply completes
them exactly if it can be run turn by turn. -/
theorem fulfilled_loop_iff (reply : IntroReply) {reqs : List PendingIntroRequest}
    (hrun : (dispatch depth (reply.arrival name).message (reply.arrival name).fds
      (reply.arrival name).linkId).run s =
        (completeIntroductions depth name).run (reply.opened name s))
    (hreqs : s.tables.pendingIntroductions name = reqs) :
    (∃ s', s.Fulfilled depth name reply reqs s') ↔
      ∃ t', InTurn (reply.Turn (reply.opened name s).info depth name) reqs
        ((reply.opened name s).tables.unqueue name) t' := by
  have hpending : (reply.opened name s).tables.pendingIntroductions =
      s.tables.pendingIntroductions := by
    cases reply <;> rfl
  constructor
  · rintro ⟨s', hdone⟩
    have hreturns := hdone.returns
    rw [hrun] at hreturns
    obtain ⟨t, -, rfl⟩ := completeIntroductions_ok.mp hreturns
    exact ⟨t, hdone.turns⟩
  · rintro ⟨t', hturns⟩
    have hruns := hturns.mono fun _ _ _ h => h.1
    refine ⟨{ reply.opened name s with tables := t' }, ?_, ?_, hturns, ?_⟩
    · rw [hrun]
      refine completeIntroductions_ok.mpr ⟨t', ?_, rfl⟩
      rw [hpending, hreqs]
      exact hruns
    · intro hreply
      cases reply with
      | accept transportIndex memoryIndex fds =>
          refine ⟨⟨name, some .empty⟩, ?_, rfl⟩
          show _ ∈ update s.info.links linkIdIntroduced _ linkIdIntroduced
          rw [Function.update_self]
          rfl
      | reject => exact absurd rfl hreply
    · have hkept := inTurn_introductions hruns
      show t'.pendingIntroductions = _
      rw [hkept]
      show update (reply.opened name s).tables.pendingIntroductions name [] = _
      rw [hpending]

/-- A reply completes the requests that wait exactly where it can: the code
checks less than that. -/
theorem fulfilled_iff {reply : IntroReply} (hlink : linkIdForNode s.info name = none)
    {reqs : List PendingIntroRequest} (hreqs : s.tables.pendingIntroductions name = reqs)
    (hne : reqs ≠ []) :
    (∃ s', s.Fulfilled depth name reply reqs s') ↔ reply.CanComplete depth s name reqs := by
  cases reply with
  | reject =>
      refine (fulfilled_loop_iff .reject rfl hreqs).trans ?_
      exact (exists_turns_iff .reject hlink reqs _).trans (disconnects_iff name hlink)
  | accept transportIndex memoryIndex fds =>
      unfold IntroReply.CanComplete
      cases hfree : (s.info.links linkIdIntroduced).isNone with
      | false =>
          -- nothing happens, and the requests stay in the table
          refine ⟨?_, nofun⟩
          rintro ⟨s', hdone⟩
          have hreturns := hdone.returns
          have hsame : s = s' := (EStateM.Result.ok.inj
            ((onAcceptIntroduction_taken hfree _ _ _).symm.trans hreturns)).2
          have hgone := congrFun hdone.removed name
          rw [← hsame, hreqs, Function.update_self] at hgone
          exact absurd hgone hne
      | true =>
          constructor
          · rintro ⟨s', hdone⟩
            have hfds := onAcceptIntroduction_fds hfree hdone.returns
            refine ⟨rfl, adoptIntroducedFds_ok.mp hfds, ?_⟩
            have hturns := (fulfilled_loop_iff (.accept transportIndex memoryIndex fds)
              (onAcceptIntroduction_run hfree hfds) hreqs).mp ⟨s', hdone⟩
            exact (exists_turns_iff (.accept transportIndex memoryIndex fds)
              (linkIdForNode_introduced hlink) reqs _).mp hturns
          · rintro ⟨-, hfds, hturns⟩
            refine (fulfilled_loop_iff (.accept transportIndex memoryIndex fds)
              (onAcceptIntroduction_run hfree (adoptIntroducedFds_ok.mpr hfds)) hreqs).mpr ?_
            exact (exists_turns_iff (.accept transportIndex memoryIndex fds)
              (linkIdForNode_introduced hlink) reqs _).mpr hturns

end Reply

/-! ### All runs -/

section Runs

variable {depth : Nat}

/-- A loop empties its row also if it fails. -/
theorem completeIntroductions_introductions (s : RoutingAcceptor) (name : NodeName) :
    (endState ((completeIntroductions depth name).run s)).tables.pendingIntroductions =
      update s.tables.pendingIntroductions name [] := by
  unfold completeIntroductions
  rw [inTables_end, run_get_bind, run_bind_of_ok (run_modify _ _)]
  have hloop : Yields
      (fun t : RouteTables =>
        t.pendingIntroductions = update s.tables.pendingIntroductions name [])
      ((s.tables.pendingIntroductions name).forM fun req =>
        completePendingIntro s.info (routerFlush s.info depth) name req) fun _ => True :=
    yields_forM fun req _ => completePendingIntro_introductions depth name req
  exact (hloop _ rfl).1

/-- A reply is ignored, or its link is opened and its row emptied. -/
theorem receive_reply {s s' : RoutingAcceptor} {name : NodeName} {reply : IntroReply}
    (h : s.receive depth (reply.arrival name) = s') :
    (s'.info = s.info ∧ s'.tables.pendingIntroductions = s.tables.pendingIntroductions) ∨
      s'.info = (reply.opened name s).info ∧
        (reply ≠ .reject → s.info.links linkIdIntroduced = none) ∧
        s'.tables.pendingIntroductions = update s.tables.pendingIntroductions name [] := by
  cases reply with
  | reject =>
      have hend : endState ((completeIntroductions depth name).run s) = s' := h
      rw [← hend]
      refine .inr ⟨?_, fun hreply => absurd rfl hreply, completeIntroductions_introductions s name⟩
      unfold completeIntroductions
      rw [inTables_end]
      rfl
  | accept transportIndex memoryIndex fds =>
      have hend : endState ((onAcceptIntroduction depth name transportIndex memoryIndex fds).run s) =
        s' := h
      rw [← hend]
      cases hfree : (s.info.links linkIdIntroduced).isNone with
      | false =>
          rw [onAcceptIntroduction_taken hfree]
          exact .inl ⟨rfl, rfl⟩
      | true =>
          cases hfds : adoptIntroducedFds s.info transportIndex memoryIndex fds with
          | ok _ =>
            rw [onAcceptIntroduction_run hfree hfds]
            refine .inr ⟨?_, fun _ => Option.isNone_iff_eq_none.mp hfree,
              completeIntroductions_introductions (s.adoptIntroduced name) name⟩
            unfold completeIntroductions
            rw [inTables_end]
            rfl
          | error e =>
            rw [onAcceptIntroduction_refused hfree hfds]
            exact .inl ⟨rfl, rfl⟩

namespace IntroState

/-- The table has the requests that wait, and they wait for nodes without a
link. -/
structure Sound (s : IntroState) : Prop where
  inSync : s.InSync
  unlinked : ∀ name, s.waiting name ≠ [] → linkIdForNode s.node.info name = none

theorem start_sound (s : RoutingAcceptor) : (start s).Sound := ⟨rfl, fun _ h => absurd rfl h⟩

theorem request_sound {s : IntroState} (h : s.Sound) (d : Nat) (name : NodeName)
    (req : PendingIntroRequest) : (s.step depth (.request d name req)).Sound := by
  have hinfo : (s.node.establish d name req).info = s.node.info := by
    unfold RoutingAcceptor.establish
    rw [inTables_end]
  have htable : (s.node.establish d name req).tables.pendingIntroductions =
      if (linkIdForNode s.node.info name).isSome then s.node.tables.pendingIntroductions
      else update s.node.tables.pendingIntroductions name
        (s.node.tables.pendingIntroductions name ++ [req]) := by
    unfold RoutingAcceptor.establish
    rw [inTables_end]
    exact establishLink_introductions d name req s.node.tables
  refine ⟨?_, fun other hother => ?_⟩
  · show (s.node.establish d name req).tables.pendingIntroductions = ite _ _ _
    rw [htable, show s.node.tables.pendingIntroductions = s.waiting from h.inSync]
  · show linkIdForNode (s.node.establish d name req).info other = none
    rw [hinfo]
    by_cases hlink : (linkIdForNode s.node.info name).isSome = true
    · refine h.unlinked other fun hnone => hother ?_
      show (ite _ s.waiting _) other = []
      rw [if_pos hlink]
      exact hnone
    · by_cases hname : other = name
      · subst hname
        exact Option.not_isSome_iff_eq_none.mp hlink
      · refine h.unlinked other fun hnone => hother ?_
        show (ite _ _ (update s.waiting name _)) other = []
        rw [if_neg hlink, Function.update_of_ne hname]
        exact hnone

theorem reply_sound {s : IntroState} (h : s.Sound) {name : NodeName} {reply : IntroReply}
    (hdone : s.Fulfils depth (.reply name reply)) : (s.step depth (.reply name reply)).Sound := by
  have htable : (s.node.receive depth (reply.arrival name)).tables.pendingIntroductions =
      update s.waiting name [] := by
    rw [← show s.node.tables.pendingIntroductions = s.waiting from h.inSync]
    by_cases hwaiting : s.waiting name = []
    · rcases receive_reply rfl with ⟨-, hsame⟩ | ⟨-, -, hemptied⟩
      · rw [hsame, ← hwaiting, ← h.inSync, Function.update_eq_self]
      · exact hemptied
    · obtain ⟨s', hs'⟩ := hdone hwaiting
      unfold RoutingAcceptor.receive
      rw [hs'.returns]
      exact hs'.removed
  refine ⟨htable, fun other hother => ?_⟩
  have hne : other ≠ name := fun heq => hother (heq ▸ Function.update_self ..)
  have hold : s.waiting other ≠ [] := fun hnone =>
    hother ((Function.update_of_ne hne ..).trans hnone)
  show linkIdForNode (s.node.receive depth (reply.arrival name)).info other = none
  rcases receive_reply rfl with ⟨hinfo, -⟩ | ⟨hinfo, hfree, -⟩
  · rw [hinfo]
    exact h.unlinked other hold
  · rw [hinfo]
    cases reply with
    | reject => exact h.unlinked other hold
    | accept transportIndex memoryIndex fds =>
        exact (linkIdForNode_adoptIntroduced (hfree nofun) hne).trans (h.unlinked other hold)

theorem step_sound {s : IntroState} {op : IntroOp} (h : s.Sound) (hlegal : s.Legal op)
    (hdone : s.Fulfils depth op) : (s.step depth op).Sound := by
  cases op with
  | request d name req => exact request_sound h d name req
  | reply name reply => exact reply_sound h hdone
  | other node =>
      refine ⟨hlegal.requests.trans h.inSync, fun name hname => ?_⟩
      exact (hlegal.links name).trans (h.unlinked name hname)

theorem fulfils_iff {s : IntroState} (h : s.Sound) (op : IntroOp) :
    s.Fulfils depth op ↔ s.CanFulfil depth op := by
  cases op with
  | request d name req => exact Iff.rfl
  | other node => exact Iff.rfl
  | reply name reply =>
      exact forall_congr' fun hne =>
        fulfilled_iff (h.unlinked name hne) (congrFun h.inSync name) hne

end IntroState

open IntroState

/-- In a run of requests for links, replies of the broker and whatever else the
node does, the table always has the requests that wait, and every reply
completes those for its node, exactly if every reply finds things so that it
can. -/
theorem introductions_complete_iff (depth : Nat) (s : RoutingAcceptor) (ops : List IntroOp)
    (hlegal : Meets (step depth) Legal (start s) ops) :
    (Always (step depth) InSync (start s) ops ∧ Meets (step depth) (Fulfils depth) (start s) ops) ↔
      Meets (step depth) (CanFulfil depth) (start s) ops := by
  have hsteps : ∀ (s : IntroState) op, s.Sound → (s.Legal op ∧ s.Fulfils depth op) →
      (s.step depth op).Sound :=
    fun s op h hop => step_sound h hop.1 hop.2
  have hback : ∀ (s : IntroState) op, s.Sound → (s.Legal op ∧ s.CanFulfil depth op) →
      (s.step depth op).Sound :=
    fun s op h hop => step_sound h hop.1 ((fulfils_iff h op).mpr hop.2)
  constructor
  · rintro ⟨-, hdone⟩
    exact Meets.imp hsteps (fun s op h hop => (fulfils_iff h op).mp hop.2) (start_sound s)
      (meets_and.mpr ⟨hlegal, hdone⟩)
  · intro hcan
    have hboth := meets_and.mpr ⟨hlegal, hcan⟩
    exact ⟨(always_of_meets hback (start_sound s) hboth).imp fun s h => h.inSync,
      Meets.imp hback (fun s op h hop => (fulfils_iff h op).mpr hop.2) (start_sound s) hboth⟩

/-- A node with two routes over link 0. -/
def twoRoutes : RoutingAcceptor :=
  { RoutingAcceptor.fresh [0] with
    tables := (RouteTables.fresh.setRouter 10 (.newTerminal (.remote 0 3 .central .b none))).setRouter
      11 (.newTerminal (.remote 0 4 .central .b none)) }

/-- Two requests for a node that the broker rejects. -/
def rejectedRequests (rid rid' : Nat) : List IntroOp :=
  [.request 2 ⟨7, 7⟩ ⟨rid, 0, 3, 20⟩, .request 2 ⟨7, 7⟩ ⟨rid', 0, 3, 21⟩, .reply ⟨7, 7⟩ .reject]

/-- Both routes are disconnected; but if both requests are about one route, the
reply is an error. -/
theorem introductions_rejected :
    (Always (step 2) InSync (start twoRoutes) (rejectedRequests 10 11) ∧
      Meets (step 2) (Fulfils 2) (start twoRoutes) (rejectedRequests 10 11)) ∧
    ¬(Always (step 2) InSync (start twoRoutes) (rejectedRequests 10 10) ∧
      Meets (step 2) (Fulfils 2) (start twoRoutes) (rejectedRequests 10 10)) := by
  have hlegal : ∀ rid, Meets (step 2) Legal (start twoRoutes) (rejectedRequests 10 rid) :=
    fun _ => ⟨trivial, trivial, trivial, trivial⟩
  refine ⟨(introductions_complete_iff 2 twoRoutes _ (hlegal 11)).mpr ?_, fun hdone => ?_⟩
  · refine ⟨trivial, trivial, fun _ => ⟨?_, ?_⟩, trivial⟩
    · decide +kernel
    · exact List.forall_mem_cons.mpr ⟨by decide +kernel,
        List.forall_mem_singleton.mpr (by decide +kernel)⟩
  · obtain ⟨-, -, hreply, -⟩ := (introductions_complete_iff 2 twoRoutes _ (hlegal 10)).mp hdone
    have hnodup := (hreply (by decide +kernel)).1
    revert hnodup
    decide +kernel

end Runs

/-! ### All other messages -/

section Others

/-- A request, or something that leaves the requests alone. -/
inductive RoutingAcceptor.Between : RoutingAcceptor → RoutingAcceptor → Prop
  | apart {s s' : RoutingAcceptor} : s.Apart s' → Between s s'
  | request (s : RoutingAcceptor) (depth : Nat) (name : NodeName) (req : PendingIntroRequest) :
      Between s (s.establish depth name req)
  | trans {s s' s'' : RoutingAcceptor} : Between s s' → Between s' s'' → Between s s''

namespace RoutingAcceptor

instance : Std.Refl Between := ⟨fun _ => .apart ⟨rfl, fun _ => rfl⟩⟩

instance : IsTrans RoutingAcceptor Between := ⟨fun _ _ _ => .trans⟩

theorem between_inTables {α : Type} {f : NodeInfo → RouteM α}
    (h : ∀ K info, Yields (fun t => t.pendingIntroductions = K) (f info) fun _ => True) :
    Maintains Between (inTables f) := by
  intro s
  rw [inTables_end]
  exact .apart ⟨(h _ s.info s.tables rfl).1, fun _ => rfl⟩

theorem between_setRegistry (s : RoutingAcceptor) (linkId : Nat) (reg : BufferRegistry) :
    s.Between (s.setRegistry linkId reg) := by
  refine .apart ⟨rfl, fun name => ?_⟩
  have hlink : ∀ id, ((s.setRegistry linkId reg).info.links id).any (fun l => l.remoteName == name) =
      (s.info.links id).any fun l => l.remoteName == name := by
    intro id
    by_cases hid : id = linkId
    · subst hid
      simp only [setRegistry, Function.update_self, Option.any_map]
    · simp only [setRegistry, Function.update_of_ne hid]
  unfold linkIdForNode
  simp only [hlink]
  rfl

/-- An immediate bypass requests a link, or does nothing at all. -/
theorem between_bypassPeer (depth rid linkId : Nat) (name : NodeName) (sublink : Nat) :
    Maintains Between (inTables fun info =>
      routerBypassPeer info (routerFlush info depth) rid linkId name sublink) := by
  intro s
  have hnothing : ∀ t, t = s.tables → s.Between { s with tables := t } := fun t ht =>
    .apart ⟨congrArg (·.pendingIntroductions) ht, fun _ => rfl⟩
  rw [inTables_end]
  unfold routerBypassPeer
  rcases getRouter_cases rid "bypass for unknown router" s.tables with ⟨err, hmissing⟩ | ⟨r, -, hr⟩
  · rw [EStateM.run_bind, hmissing]
    exact hnothing _ rfl
  · rw [run_bind_of_ok hr]
    cases r.outward.primary with
    | none => exact hnothing _ rfl
    | some primary =>
        dsimp only
        split
        · exact hnothing _ rfl
        split
        · exact hnothing _ rfl
        · have hrequest := Between.request s depth name ⟨rid, linkId, primary.sublink, sublink⟩
          unfold RoutingAcceptor.establish at hrequest
          rw [inTables_end] at hrequest
          convert hrequest using 5
          unfold establishLink completePendingIntro
          cases linkIdForNode s.info name <;> rfl

theorem adopt_introductions (t : RouteTables) (linkId : Nat) (d : RouterDescriptor) (r : Router) :
    (t.adopt linkId d r).pendingIntroductions = t.pendingIntroductions := by
  show (d.sublinks.foldl (fun s sublink => s.setOwner (linkId, sublink) d.newSublink)
    t).pendingIntroductions = _
  generalize d.sublinks = sublinks
  induction sublinks generalizing t with
  | nil => rfl
  | cons sublink sublinks ih => exact ih _

theorem between_framed (linkId : Nat) : Framed Between linkId where
  flush depth rid force :=
    between_inTables fun K _ => (introductions_frame K).routerFlush depth force
  bypass depth rid name sublink := between_bypassPeer depth rid linkId name sublink
  accept _ _ _ _ := between_inTables fun K _ => acceptAt_frame (introductions_frame K) trivial
  queues _ _ _ := .apart ⟨rfl, fun _ => rfl⟩
  adopt d := by
    unfold adoptRouter
    refine Maintains.bind (between_inTables fun K _ =>
      (introductions_frame K).ofQuiet (checkDescriptor_quiet d)) fun _ => ?_
    cases d.toRouter linkId with
    | none => exact keeps_throw _
    | some r =>
        intro s
        refine .apart ⟨?_, fun _ => rfl⟩
        exact adopt_introductions s.tables linkId d r
  defer _ _ _ _ := .apart ⟨rfl, fun _ => rfl⟩

section Dispatch

variable {depth : Nat}

theorem processAcceptParcel_between (p : ParcelMessage) (fds : List OwnedFd) (linkId : Nat) :
    Maintains Between (processAcceptParcel depth p fds linkId) :=
  processAcceptParcel_keeps (between_framed linkId) depth p fds

theorem routerFlush_between (rid : Nat) (force : Bool) :
    Maintains Between (inTables fun info => routerFlush info depth rid force) :=
  (between_framed 0).flush depth rid force

theorem onAddBlockBuffer_between (bufferId : UInt64) (blockSize bufferIndex : Nat)
    (fds : List OwnedFd) (linkId : Nat) :
    Maintains Between (onAddBlockBuffer depth bufferId blockSize bufferIndex fds linkId) := by
  unfold onAddBlockBuffer
  cases fds[bufferIndex]? with
  | none => exact keeps_throw _
  | some fd =>
      refine Maintains.bind (between_inTables fun K _ =>
        (introductions_frame K).ofQuiet (memoryFor_keeps _)) fun reg => ?_
      cases reg.addBlockBuffer bufferId fd.size blockSize with
      | error e => exact keeps_throw _
      | ok reg =>
          refine Maintains.bind (keeps_modify fun s => between_setRegistry s _ reg) fun _ => ?_
          apply keeps_get_bind
          intro s
          refine Maintains.bind (keeps_modify fun s => .apart ⟨rfl, fun _ => rfl⟩) (fun _ => ?_) s
          exact keeps_forM fun _ _ => (processAcceptParcel_between _ _ _).bind fun _ => keeps_pure _

theorem onBypassPeerWithLink_between (sublink newSublink : Nat) (fragment : FragmentDescriptor)
    (inboundSequenceLength linkId : Nat) :
    Maintains Between (onBypassPeerWithLink depth sublink newSublink fragment inboundSequenceLength
      linkId) := by
  unfold onBypassPeerWithLink
  dsimp only
  split
  · exact keeps_throw_bind _ _
  refine Maintains.bind (between_inTables fun K _ => (introductions_frame K).ofQuiet
    ((memoryFor_keeps _).bind fun _ => liftMemory_keeps _)) fun _ => ?_
  apply keeps_get_bind
  intro s
  cases s.tables.owners (linkId, sublink) with
  | none => exact Std.Refl.refl s
  | some rid =>
      apply keeps_get_bind (R := Between) _ s
      intro s
      refine Maintains.bind (between_inTables fun K _ =>
        adoptCentralLink_frame (introductions_frame K) _ _ _ _) (fun x => ?_) s
      cases x with
      | none => exact keeps_pure _
      | some x =>
          refine Maintains.bind (keeps_modify fun s => .apart ⟨rfl, fun _ => rfl⟩) fun _ => ?_
          refine Maintains.bind (between_inTables fun K _ => send_introductions _ _ _) fun _ => ?_
          refine Maintains.bind (takeEarlyParcels_keeps (between_framed linkId) _) fun early => ?_
          refine Maintains.bind ?_ fun _ => routerFlush_between _ _
          exact replayEarlyParcels_keeps (fun p fds => processAcceptParcel_between p fds _) early

theorem notifyBypassed_introductions {info : NodeInfo} {K : NodeName → List PendingIntroRequest}
    (oldLinkId newLinkId oldSublink newSublink length inboundSequenceLength : Nat) :
    Yields (fun t => t.pendingIntroductions = K)
      (notifyBypassed info oldLinkId newLinkId oldSublink newSublink length inboundSequenceLength)
      fun _ => True := by
  unfold notifyBypassed
  split
  · exact (send_introductions _ _ _).bind fun _ _ => send_introductions _ _ _
  · exact send_introductions _ _ _

theorem onAcceptBypassLinkMessage_between (currentPeerNode : NodeName) (currentPeerSublink
    inboundSequenceLength newSublink : Nat) (fragment : FragmentDescriptor) (newLinkId : Nat) :
    Maintains Between (onAcceptBypassLinkMessage depth currentPeerNode currentPeerSublink
      inboundSequenceLength newSublink fragment newLinkId) := by
  unfold onAcceptBypassLinkMessage
  apply keeps_get_bind
  intro s
  cases linkIdForNode s.info currentPeerNode with
  | none => exact Std.Refl.refl s
  | some oldLinkId =>
      apply keeps_get_bind (R := Between) _ s
      intro s
      cases s.tables.owners (oldLinkId, currentPeerSublink) with
      | none => exact Std.Refl.refl s
      | some rid =>
          refine Maintains.bind (between_inTables fun K _ => (introductions_frame K).ofQuiet
            ((memoryFor_keeps _).bind fun _ => liftMemory_keeps _)) (fun _ => ?_) s
          refine Maintains.bind (between_inTables fun K _ =>
            (checkBypassSource_same _ _ _).yields fun _ _ heq hK => heq ▸ hK) fun allowed => ?_
          split
          · apply keeps_get_bind
            intro s
            refine Maintains.bind (between_inTables fun K _ =>
              adoptCentralLink_frame (introductions_frame K) _ _ _ _) (fun x => ?_) s
            cases x with
            | none => exact keeps_pure _
            | some x =>
                refine Maintains.bind (keeps_modify fun s => .apart ⟨rfl, fun _ => rfl⟩)
                  fun _ => ?_
                exact between_inTables fun K _ => (notifyBypassed_introductions _ _ _ _ _ _).bind
                  fun _ _ => (introductions_frame K).routerFlush depth false
          · exact keeps_pure _

theorem onProvideMemory_between (size : Nat) (fd : OwnedFd) (linkId : Nat) :
    Maintains Between (onProvideMemory size fd linkId) := by
  unfold onProvideMemory
  apply keeps_get_bind
  intro s
  cases s.tables.pendingMemoryRequests (linkId, size) with
  | nil => exact Std.Refl.refl s
  | cons blockSize rest =>
      refine Maintains.bind (between_inTables fun K _ => ?_) (fun reg => ?_) s
      · exact Yields.bind (yields_modify fun _ hK => hK) fun _ _ =>
          (introductions_frame K).ofQuiet (memoryFor_keeps _)
      apply keeps_get_bind
      intro s
      refine Maintains.bind (between_inTables fun K _ => ?_) (fun _ => ?_) s
      · exact Yields.bind (yields_modify fun _ hK => hK) fun _ _ => send_introductions _ _ _
      cases reg.registerBlockBuffer _ fd.size blockSize with
      | error e => exact keeps_throw _
      | ok reg =>
          refine Maintains.bind (keeps_modify fun s => between_setRegistry s _ reg) fun _ => ?_
          exact between_inTables fun K _ => yields_modify fun _ hK => hK

theorem withOwner_between (linkId sublink : Nat) {f : NodeInfo → Nat → RouteM Unit}
    (h : ∀ K info rid, Yields (fun t => t.pendingIntroductions = K) (f info rid) fun _ => True) :
    Maintains Between (withOwner linkId sublink f) := by
  unfold withOwner
  apply keeps_get_bind
  intro s
  cases s.tables.owners (linkId, sublink) with
  | none => exact Std.Refl.refl s
  | some rid => exact between_inTables (fun K info => h K info rid) s

end Dispatch

end RoutingAcceptor

/-- The message is a reply to a `RequestIntroduction`. -/
def RouteMessage.isIntroReply : RouteMessage → Bool
  | .acceptIntroduction .. | .rejectIntroduction _ => true
  | _ => false

open RoutingAcceptor

/-- Whatever else a node receives, it only adds requests. -/
theorem receive_between (depth : Nat) (s : RoutingAcceptor) (m : Arrival)
    (h : m.message.isIntroReply = false) : s.Between (s.receive depth m) := by
  obtain ⟨msg, fds, linkId⟩ := m
  have hflush : ∀ (K : NodeName → List PendingIntroRequest) (info : NodeInfo) (rid : Nat)
      (force : Bool), Yields (fun t => t.pendingIntroductions = K)
        (routerFlush info depth rid force) fun _ => True :=
    fun K _ _ force => (introductions_frame K).routerFlush depth force
  have hdispatch : Maintains Between (dispatch depth msg fds linkId) := by
    cases msg with
    | acceptParcel p => exact (processAcceptParcel_between _ _ _).bind fun _ => keeps_pure _
    | addBlockBuffer bufferId blockSize bufferIndex => exact onAddBlockBuffer_between _ _ _ _ _
    | routeClosed sublink sequenceLength =>
        exact withOwner_between _ _ fun K info rid =>
          routerRouteClosed_frame (introductions_frame K) (hflush K info) rid _ _
    | routeDisconnected sublink =>
        exact withOwner_between _ _ fun K _ _ => routerDisconnected_frame (introductions_frame K)
    | bypassPeer sublink bypassTargetNode bypassTargetSublink => exact keeps_throw _
    | acceptBypassLink node peerSublink length newSublink fragment =>
        exact onAcceptBypassLinkMessage_between _ _ _ _ _ _
    | stopProxying sublink inLength outLength =>
        exact withOwner_between _ _ fun K info rid =>
          routerStopProxying_frame (introductions_frame K) (hflush K info) rid _ _
    | proxyWillStop sublink inLength =>
        exact withOwner_between _ _ fun K info rid =>
          routerProxyWillStop_frame (introductions_frame K) (hflush K info) rid _
    | bypassPeerWithLink sublink newSublink fragment length =>
        exact onBypassPeerWithLink_between _ _ _ _ _
    | stopProxyingToLocalPeer sublink outLength =>
        exact withOwner_between _ _ fun K info rid =>
          routerStopProxyingToLocalPeer_frame (introductions_frame K) (hflush K info) rid _
    | flushRouter sublink => exact withOwner_between _ _ fun K info rid => hflush K info rid _
    | requestMemory size => exact keeps_throw _
    | provideMemory size =>
        unfold dispatch
        dsimp only
        split
        · exact onProvideMemory_between _ _ _
        · exact keeps_throw _
    | requestIntroduction name => exact keeps_throw _
    | acceptIntroduction name transportIndex memoryIndex => cases h
    | rejectIntroduction name => cases h
  exact hdispatch s

/-- It is a run of requests and of other steps, which every run may contain. -/
theorem RoutingAcceptor.Between.run {s s' : RoutingAcceptor} (h : s.Between s') :
    ∃ ops : List IntroOp, ∀ depth waiting,
      Meets (IntroState.step depth) IntroState.Legal ⟨s, waiting⟩ ops ∧
        (exec (IntroState.step depth) ⟨s, waiting⟩ ops).node = s' := by
  induction h with
  | apart h => exact ⟨[.other _], fun depth waiting => ⟨⟨h, trivial⟩, rfl⟩⟩
  | request s d name req => exact ⟨[.request d name req], fun depth waiting => ⟨⟨trivial, trivial⟩, rfl⟩⟩
  | trans _ _ ih ih' =>
      obtain ⟨ops, hops⟩ := ih
      obtain ⟨ops', hops'⟩ := ih'
      refine ⟨ops ++ ops', fun depth waiting => ?_⟩
      obtain ⟨hlegal, hend⟩ := hops depth waiting
      obtain ⟨hlegal', hend'⟩ :=
        hops' depth (exec (IntroState.step depth) ⟨_, waiting⟩ ops).waiting
      rw [← hend] at hlegal' hend'
      exact ⟨meets_append.mpr ⟨hlegal, hlegal'⟩, by rw [exec_append]; exact hend'⟩

end Others

end MojoRs.Ipcz
