/-
MojoRs/Ipcz/JoinedDelivery.lean

What the portals of two joined nodes receive.  A parcel brings its data in the
message or in a block of the memory that the nodes share; blocks in flight are
never given out again, so the data is there when the message is taken, whatever
both nodes write meanwhile.

Every portal holds a prefix of what the other application has put before it
closed, in order, each parcel once and with its own bytes.  As long as an end
has not closed itself, all that it does not hold yet is on its way to it
(`delivered_in_order`).

Main results: `JoinedNodes.Logged.step`, `delivered_in_order`.
-/
import MojoRs.Ipcz.FreshBlocks
import MojoRs.Ipcz.JoinedNodes

namespace MojoRs.Ipcz

open Function (update)
open Lib Teardown

/-! ### What is on its way -/

/-- The data that a message brings, with the memory of its link. -/
def broughtData (m : SharedMemory) :
    Nat × RouteMessage × List OwnedFd → Option (List UInt8)
  | (_, .acceptParcel p, _) =>
      some (if p.parcelFragment.isNull then p.parcelData else m.parcels p.parcelFragment.key)
  | _ => none

/-- What the messages bring, in order. -/
def contents (m : SharedMemory) (msgs : List (Nat × RouteMessage × List OwnedFd)) :
    List (List UInt8) :=
  msgs.filterMap (broughtData m)

/-- No message refers to a free block. -/
def HeldApart (reg : BufferRegistry) (m : SharedMemory)
    (msgs : List (Nat × RouteMessage × List OwnedFd)) : Prop :=
  ∀ msg ∈ msgs, ∀ p, msg.2.1 = .acceptParcel p → p.parcelFragment.isNull = false →
    ¬m.IsFree reg p.parcelFragment.key

section Contents

variable {reg : BufferRegistry} {m m' : SharedMemory}
  {msgs msgs' : List (Nat × RouteMessage × List OwnedFd)}

@[simp] theorem contents_nil (m : SharedMemory) : contents m [] = [] := rfl

@[simp] theorem contents_append (m : SharedMemory)
    (msgs msgs' : List (Nat × RouteMessage × List OwnedFd)) :
    contents m (msgs ++ msgs') = contents m msgs ++ contents m msgs' :=
  List.filterMap_append

theorem HeldApart.append (h : HeldApart reg m msgs) (h' : HeldApart reg m msgs') :
    HeldApart reg m (msgs ++ msgs') := fun msg hmsg =>
  (List.mem_append.mp hmsg).elim (h msg) (h' msg)

/-- What is written into other blocks is of no concern. -/
theorem HeldApart.grows (h : HeldApart reg m msgs) (hgrows : SharedMemory.Grows reg m m') :
    HeldApart reg m' msgs ∧ contents m' msgs = contents m msgs := by
  refine ⟨fun msg hmsg p hp hnull hfree => h msg hmsg p hp hnull (hgrows.free _ hfree), ?_⟩
  apply List.filterMap_congr
  rintro ⟨seq, msg, fds⟩ hmsg
  cases msg with
  | acceptParcel p =>
      cases hnull : p.parcelFragment.isNull with
      | true => simp [broughtData, hnull]
      | false =>
          have hkey := hgrows.parcels _ (h _ hmsg p rfl hnull)
          simp [broughtData, hnull, hkey]
  | _ => rfl

end Contents

namespace CentralLink

variable (c : CentralLink)

/-- The portal at an end holds these messages. -/
def Shows (x : LinkSide) (t : RouteTables) (messages : List (List UInt8 × List Object)) : Prop :=
  ∃ primary inbound outbound closed,
    t.routers (c.rid x) = some (endRouter primary messages inbound outbound closed)

/-- What an end has done: the messages that its portal holds now, and the data
that it has sent. -/
structure Passes (x : LinkSide) (t t' : RouteTables) (messages : List (List UInt8 × List Object))
    (sent : List (List UInt8)) : Prop where
  shows : c.Shows x t' messages
  sent : ∃ added, (t'.channels (c.linkId x)).sent = (t.channels (c.linkId x)).sent ++ added ∧
    contents (t'.memories (c.linkId x)) added = sent ∧
    HeldApart c.buffers (t'.memories (c.linkId x)) added
  grows : SharedMemory.Grows c.buffers (t.memories (c.linkId x)) (t'.memories (c.linkId x))

end CentralLink

section Passes

variable {c : CentralLink} {x : LinkSide} {t t' : RouteTables}
  {messages messages' : List (List UInt8 × List Object)} {sent : List (List UInt8)}

theorem CentralLink.Shows.unique (h : c.Shows x t messages) (h' : c.Shows x t messages') :
    messages = messages' := by
  obtain ⟨primary, inbound, outbound, closed, hr⟩ := h
  obtain ⟨primary', inbound', outbound', closed', hr'⟩ := h'
  have hportal := congrArg Router.portal (Option.some.inj (hr.symm.trans hr'))
  injection hportal with hportal
  injection hportal

/-- Nothing is sent and no memory touched. -/
theorem passes_quiet (hshows : c.Shows x t' messages)
    (hsent : (t'.channels (c.linkId x)).sent = (t.channels (c.linkId x)).sent)
    (hmemory : t'.memories (c.linkId x) = t.memories (c.linkId x)) :
    c.Passes x t t' messages [] where
  shows := hshows
  sent := ⟨[], hsent.trans (List.append_nil _).symm, rfl, fun _ h => absurd h List.not_mem_nil⟩
  grows := hmemory ▸ .refl ..

end Passes

/-! ### Flushing an end -/

section Flush

variable {c : CentralLink} {x : LinkSide} {info : NodeInfo} {flush : Nat → Bool → RouteM Unit}
  {t t₁ : RouteTables} {messages : List (List UInt8 × List Object)}
  {inbound inbound' outbound : ParcelQueue} {closed : Bool} {parcels : List Parcel} {n : Nat}

/-- Trying the lock touches the state of the link only. -/
theorem tryLockLinkForClosure_grows (h : c.HoldsInfo x info)
    (hstate : c.buffers.fragment c.state = .ok ()) (t : RouteTables) :
    ∃ free m, (tryLockLinkForClosure info (c.link x)).run t =
        .ok free (t.setMemory (c.linkId x) m) ∧
      SharedMemory.Grows c.buffers (t.memories (c.linkId x)) m := by
  refine ⟨((t.memories (c.linkId x)).onStatus c.state (·.tryLock x)).1,
    ((t.memories (c.linkId x)).onStatus c.state (·.tryLock x)).2, ?_, .of_eq rfl rfl⟩
  show (onLinkStatus info (c.linkId x) c.state (·.tryLock x)).run t = _
  unfold onLinkStatus
  rw [run_bind_of_ok (memoryFor_run h t), hstate]
  rfl

/-- A closure that an end passes on brings no data. -/
theorem finishFlush_passes (flush : Nat → Bool → RouteM Unit) (start : FlushStart) (dead : Bool)
    {s : RouteTables} {routeClosed : Option (Link × Nat)} (hinfo : c.HoldsInfo x info)
    (hintact : (s.channels (c.linkId x)).broken = false) (hshows : c.Shows x s messages)
    (hlink : ∀ l n, routeClosed = some (l, n) → l = c.link x) :
    ∃ t', (finishFlush info flush (c.rid x) false start routeClosed none dead false).run s =
        .ok ⟨⟩ t' ∧ c.Passes x s t' messages [] := by
  cases routeClosed with
  | none => exact ⟨s, finishFlush_quiet start dead, passes_quiet hshows rfl rfl⟩
  | some r =>
      obtain ⟨l, n⟩ := r
      obtain rfl := hlink l n rfl
      have hsend := sendLinkMessageOn_run hinfo hintact (.routeClosed c.sublink n)
      refine ⟨s.sendOn (c.linkId x) (.routeClosed c.sublink n), ?_,
        ⟨hshows, ⟨[_], sendOn_sent .., rfl, ?_⟩, .refl ..⟩⟩
      · show EStateM.run ((sendLinkMessageOn info (c.linkId x) (.routeClosed c.sublink n) [] >>=
          fun _ => pure PUnit.unit) >>= fun _ => _) _ = _
        rw [EStateM.run_bind, run_bind_of_ok hsend]
        exact flushTail_quiet start dead
      · intro msg hmsg p hp
        obtain rfl := List.mem_singleton.mp hmsg
        cases hp

/-- The closures of an end: it may take the lock and give its link up. -/
theorem flushClosures_passes (start : FlushStart) (hinfo : c.HoldsInfo x info)
    (hstate : c.buffers.fragment c.state = .ok ()) {primary : Option Link}
    (hprimary : primary = none ∨ primary = some (c.link x))
    (hcentral : start.onCentral = primary.any (·.kind.isCentral))
    (h : t.routers (c.rid x) = some (endRouter primary messages inbound outbound closed)) :
    ∃ routeClosed dead s,
      (flushClosures info (c.rid x) start).run t = .ok (routeClosed, none, dead) s ∧
      s.channels = t.channels ∧
      SharedMemory.Grows c.buffers (t.memories (c.linkId x)) (s.memories (c.linkId x)) ∧
      (∃ primary, s.routers (c.rid x) =
        some (endRouter primary messages inbound outbound closed)) ∧
      ∀ l n, routeClosed = some (l, n) → l = c.link x := by
  cases hopen : (primary.any (·.kind.isCentral) && outbound.isSequenceFullyConsumed) with
  -- not on the central link, or not all is sent: nothing closes
  | false =>
      refine ⟨none, _, _, flushClosures_quiet h (hcentral ▸ endRouter_closures hopen), rfl,
        .refl .., ⟨_, RouteTables.setRouter_routers_self ..⟩, nofun⟩
  -- all is sent: the lock decides whether the link is given up
  | true =>
      obtain ⟨hlinked, hdone⟩ := Bool.and_eq_true_iff.mp hopen
      obtain rfl | rfl := hprimary
      · cases hlinked
      obtain ⟨n, hfinal, hn⟩ : ∃ n, outbound.finalLength = some n ∧ n ≤ outbound.current := by
        rw [ParcelQueue.isSequenceFullyConsumed] at hdone
        cases hfinal : outbound.finalLength with
        | none =>
            rw [hfinal] at hdone
            cases hdone
        | some n =>
            rw [hfinal] at hdone
            exact ⟨n, rfl, of_decide_eq_true hdone⟩
      obtain ⟨free, m, hlock, hgrows⟩ := tryLockLinkForClosure_grows hinfo hstate t
      have hmemory : SharedMemory.Grows c.buffers (t.memories (c.linkId x))
          (update t.memories (c.linkId x) m (c.linkId x)) := by
        rwa [Function.update_self]
      unfold flushClosures
      rw [run_bind_of_ok (getRouter_some _ h), hcentral, show
        (some (c.link x)).any (·.kind.isCentral) = true from rfl, endRouter_closures_closed hfinal hn]
      dsimp only
      rw [run_bind_of_ok (putRouter_run _ _ _), RouteTables.setRouter_self h, run_bind_of_ok hlock]
      cases free with
      | false => exact ⟨none, _, _, rfl, rfl, hmemory, ⟨_, h⟩, nofun⟩
      | true =>
          have hr : (t.setMemory (c.linkId x) m).routers (c.rid x) =
              some (endRouter (some (c.link x)) messages inbound outbound closed) := h
          refine ⟨some (c.link x, n), true, (t.setMemory (c.linkId x) m).setRouter (c.rid x)
            (endRouter none messages inbound outbound closed), ?_, rfl, hmemory,
            ⟨none, RouteTables.setRouter_routers_self ..⟩, fun l n h => ?_⟩
          · show EStateM.run (getRouter (c.rid x) _ >>= _) (t.setMemory (c.linkId x) m) = _
            rw [run_bind_of_ok (getRouter_some _ hr)]
            rfl
          · injection h with h
            injection h with h
            exact h.symm

/-- The rest of a flush, once the parcels are on their way: the portal gets
what has come in order, and no data is sent. -/
theorem flush_passes {primary : Option Link} {messages₀ : List (List UInt8 × List Object)}
    {inbound₀ outbound₀ : ParcelQueue} (hinfo : c.HoldsInfo x info)
    (hstate : c.buffers.fragment c.state = .ok ())
    (hprimary : primary = none ∨ primary = some (c.link x))
    (h : t.routers (c.rid x) = some (endRouter primary messages₀ inbound₀ outbound₀ closed))
    (hparcels : (flushParcels info flush (c.rid x)).run t = .ok ⟨⟩ t₁)
    (h₁ : t₁.routers (c.rid x) = some (endRouter primary messages inbound outbound closed))
    (hdrain : inbound.drain = (parcels, inbound'))
    (hintact : (t₁.channels (c.linkId x)).broken = false) :
    ∃ t', (routerFlushWith info flush (c.rid x) false).run t = .ok ⟨⟩ t' ∧
      c.Passes x t₁ t' (messages ++ parcels.map fun p => (p.data, p.objects)) [] := by
  obtain ⟨routeClosed, dead, s, hclosures, hchannels, hgrows, ⟨_, hs⟩, hlink⟩ :=
    flushClosures_passes ⟨primary.any (·.kind.isCentral), false, false⟩ hinfo hstate hprimary
      rfl (RouteTables.setRouter_routers_self t₁ (c.rid x) _)
  obtain ⟨t', hfinish, hpasses⟩ := finishFlush_passes flush
    ⟨primary.any (·.kind.isCentral), false, false⟩ dead hinfo (by rw [hchannels]; exact hintact)
    ⟨_, _, _, _, hs⟩ hlink
  obtain ⟨added, hsent, hcontents⟩ := hpasses.sent
  refine ⟨t', (flush_upToClosures hinfo h hparcels h₁ hdrain hclosures hs rfl).trans hfinish,
    hpasses.shows, ⟨added, ?_, hcontents⟩, hgrows.trans hpasses.grows⟩
  rw [hsent, hchannels]
  rfl

/-- Flushing an end whose router has changed, with nothing to send. -/
theorem flush_changed_passes (depth : Nat) (messages : List (List UInt8 × List Object))
    (inbound outbound : ParcelQueue) (closed : Bool) {primary : Option Link}
    (hinfo : c.HoldsInfo x info) (hstate : c.buffers.fragment c.state = .ok ())
    (hprimary : primary = none ∨ primary = some (c.link x))
    (hcollect : outbound.collect ⟨primary, none⟩ = ([], outbound))
    (hdrain : inbound.drain = (parcels, inbound'))
    (hintact : (t.channels (c.linkId x)).broken = false) :
    ∃ t', (do
        putRouter (c.rid x) (endRouter primary messages inbound outbound closed)
        routerFlush info (depth + 1) (c.rid x) false : RouteM Unit).run t = .ok ⟨⟩ t' ∧
      c.Passes x t t' (messages ++ parcels.map fun p => (p.data, p.objects)) [] := by
  have hr := RouteTables.setRouter_routers_self t (c.rid x)
    (endRouter primary messages inbound outbound closed)
  have hparcels : (flushParcels info (routerFlush info depth) (c.rid x)).run
      (t.setRouter (c.rid x) _) = .ok ⟨⟩ ((t.setRouter (c.rid x) _).setRouter (c.rid x) _) :=
    flushParcels_none hr (endRouter_collect hcollect)
  rw [RouteTables.setRouter_setRouter] at hparcels
  obtain ⟨t', hrun, hpasses⟩ := flush_passes hinfo hstate hprimary hr hparcels hr hdrain hintact
  refine ⟨t', ?_, ⟨hpasses.shows, hpasses.sent, hpasses.grows⟩⟩
  rw [run_bind_of_ok (putRouter_run _ _ _)]
  exact hrun

end Flush

/-! ### What an end does -/

section Operations

variable {c : CentralLink} {x : LinkSide} {info : NodeInfo} {e : RouteEnd} {locked : Bool}
  {t : RouteTables} {messages : List (List UInt8 × List Object)}

theorem primary_cases (linked : Bool) :
    (if linked then some (c.link x) else none) = none ∨
      (if linked then some (c.link x) else none) = some (c.link x) := by
  cases linked
  · exact .inl rfl
  · exact .inr rfl

/-- The router of an end, with the messages that its portal shows. -/
theorem CentralLink.HoldsEnd.showing (h : c.HoldsEnd x e locked t) (hshows : c.Shows x t messages) :
    ∃ outbound closed, t.routers (c.rid x) =
        some (endRouter (if e.linked then some (c.link x) else none) messages
          ⟨e.received, e.peerFinal, []⟩ outbound closed) ∧
      outbound.current = e.sent ∧ outbound.finalLength = e.final ∧
      (e.linked = true → outbound.buffer = []) := by
  obtain ⟨r, hr, messages', outbound, closed, rfl, hsent, hfinal, hbuffer, -⟩ := h.router
  obtain rfl := hshows.unique ⟨_, _, _, _, hr⟩
  exact ⟨outbound, closed, hr, hsent, hfinal, hbuffer⟩

theorem close_passes (depth : Nat) (hinfo : c.HoldsInfo x info)
    (hstate : c.buffers.fragment c.state = .ok ()) (h : c.HoldsEnd x e locked t)
    (hshows : c.Shows x t messages) :
    ∃ t', (closeRoute (routerFlush info (depth + 1)) (c.rid x)).run t = .ok ⟨⟩ t' ∧
      c.Passes x t t' messages [] := by
  obtain ⟨outbound, closed, hr, -, -, hbuffer⟩ := h.showing hshows
  have hlength : outbound.setFinalSequenceLength outbound.current =
      some { outbound with finalLength := some outbound.current } := if_neg (Nat.lt_irrefl _)
  have hrun : (closeRoute (routerFlush info (depth + 1)) (c.rid x)).run t = (do
      putRouter (c.rid x) (endRouter (if e.linked then some (c.link x) else none) messages
        ⟨e.received, e.peerFinal, []⟩ { outbound with finalLength := some outbound.current } closed)
      routerFlush info (depth + 1) (c.rid x) false : RouteM Unit).run t := by
    unfold closeRoute
    rw [run_bind_of_ok (getRouter_some _ hr)]
    dsimp only [endRouter]
    rw [hlength]
    rfl
  rw [hrun]
  have hpasses := flush_changed_passes depth messages ⟨e.received, e.peerFinal, []⟩
    { outbound with finalLength := some outbound.current } closed hinfo hstate
    (primary_cases e.linked) (collect_quiet hbuffer) rfl h.intact
  rwa [List.map_nil, List.append_nil] at hpasses

/-- What is put into a block of the link's memory, or left for the message, can
be read there. -/
theorem fragment_passes (hinfo : c.HoldsInfo x info) (hbuffers : c.buffers.WellFormed)
    (h : c.HoldsEnd x e locked t) (honce : (t.memories (c.linkId x)).FreeOnce c.buffers)
    (data : List UInt8) (useFragment : Bool) :
    ∃ fragment m,
      (if useFragment then writeParcelFragmentOrInline info data (c.linkId x) else pure none).run t =
        .ok fragment (t.setMemory (c.linkId x) m) ∧
      SharedMemory.Grows c.buffers (t.memories (c.linkId x)) m ∧
      ∀ f, fragment = some f → f.isNull = false ∧ m.parcels f.key = data ∧
        ¬m.IsFree c.buffers f.key := by
  have hsame : t.setMemory (c.linkId x) (t.memories (c.linkId x)) = t := by
    rw [RouteTables.setMemory, Function.update_eq_self]
  cases useFragment with
  | false =>
      refine ⟨none, _, congrArg (EStateM.Result.ok none) hsame.symm, .refl .., fun f hf => ?_⟩
      cases hf
  | true =>
      rw [if_pos rfl]
      unfold writeParcelFragmentOrInline
      rw [run_bind_of_ok (memoryFor_run hinfo t), run_get_bind]
      cases hwrite : (t.memories (c.linkId x)).writeParcelFragment c.buffers data with
      | none =>
          refine ⟨none, _, congrArg (EStateM.Result.ok none) hsame.symm, .refl .., fun f hf => ?_⟩
          cases hf
      | some r =>
          obtain ⟨block, m⟩ := r
          obtain ⟨hblock, -, -⟩ :=
            SharedMemory.writeParcelFragment_placed hbuffers h.memory.placed hwrite
          obtain ⟨hgrows, hdata, htaken⟩ :=
            SharedMemory.writeParcelFragment_grows hbuffers h.memory.placed honce hwrite
          refine ⟨some block, m, rfl, hgrows, fun f hf => ?_⟩
          obtain rfl := Option.some.inj hf
          refine ⟨?_, hdata, htaken⟩
          have hfragment := hblock.fragment
          rw [BufferRegistry.fragment] at hfragment
          cases hnull : block.isNull with
          | false => rfl
          | true =>
              rw [hnull, if_pos rfl] at hfragment
              cases hfragment

/-- An end that has lost its link sends nothing. -/
theorem put_unlinked_passes (depth : Nat) (hinfo : c.HoldsInfo x info)
    (hstate : c.buffers.fragment c.state = .ok ()) (h : c.HoldsEnd x e locked t)
    (hshows : c.Shows x t messages) (hlinked : e.linked = false) (data : List UInt8) :
    ∃ fragment t', (put info (routerFlush info (depth + 1)) (c.rid x) data []).run t =
        .ok fragment t' ∧ c.Passes x t t' messages [] := by
  obtain ⟨outbound, closed, hr, -, -, -⟩ := h.showing hshows
  rw [hlinked, if_neg Bool.false_ne_true] at hr
  obtain ⟨t', hrun, hpasses⟩ := flush_changed_passes depth messages ⟨e.received, e.peerFinal, []⟩
    { outbound with
      buffer := ParcelMap.insert ⟨outbound.current, data, [], none⟩ outbound.buffer } closed
    hinfo hstate (.inl rfl) (collect_unlinked _) rfl h.intact
  rw [run_bind_of_ok (putRouter_run _ _ _)] at hrun
  rw [List.map_nil, List.append_nil] at hpasses
  refine ⟨none, t', ?_, hpasses⟩
  have hfragment : (!data.isEmpty && (endRouter none messages ⟨e.received, e.peerFinal, []⟩ outbound
      closed).outward.primary.any (!·.isLocal)) = false := Bool.and_false _
  refine (put_run hr (by rw [hfragment]; rfl) hr
    (congrArg (Option.map _) (if_neg (Nat.lt_irrefl _)))).trans ?_
  exact run_bind_of_ok hrun

/-- An end with its link sends the data. -/
theorem put_linked_passes (depth : Nat) (hinfo : c.HoldsInfo x info)
    (hstate : c.buffers.fragment c.state = .ok ()) (hbuffers : c.buffers.WellFormed)
    (h : c.HoldsEnd x e locked t) (honce : (t.memories (c.linkId x)).FreeOnce c.buffers)
    (hshows : c.Shows x t messages) (hlinked : e.linked = true) (data : List UInt8) :
    ∃ fragment t', (put info (routerFlush info (depth + 1)) (c.rid x) data []).run t =
        .ok fragment t' ∧ c.Passes x t t' messages [data] := by
  obtain ⟨fragment, m, hfragment, hgrows, hwritten⟩ :=
    fragment_passes hinfo hbuffers h honce data (!data.isEmpty)
  obtain ⟨⟨sent, final, buffer⟩, closed, hr, rfl, rfl, hbuffer⟩ := h.showing hshows
  obtain rfl := hbuffer hlinked
  rw [hlinked, if_pos rfl] at hr
  let inbound : ParcelQueue := ⟨e.received, e.peerFinal, []⟩
  let parcel : Parcel := ⟨e.sent, data, [], fragment⟩
  -- the router with the parcel and after it
  let holding := endRouter (some (c.link x)) messages inbound ⟨e.sent, e.final, [parcel]⟩ closed
  let emptied := endRouter (some (c.link x)) messages inbound ⟨e.sent + 1, e.final, []⟩ closed
  let t₀ := t.setMemory (c.linkId x) m
  have hholding := RouteTables.setRouter_routers_self t₀ (c.rid x) holding
  have hemptied := RouteTables.setRouter_routers_self t₀ (c.rid x) emptied
  have hcollect : holding.collectToFlush = ([(c.link x, parcel)], [], emptied) :=
    endRouter_collect (collect_next rfl)
  have hsend := transmitParcel_run (t := t₀.setRouter (c.rid x) emptied) (routerFlush info depth)
    parcel hinfo h.intact rfl
  let message := RouteMessage.acceptParcel (encodeParcel c.sublink parcel [] [])
  let entry : Nat × RouteMessage × List OwnedFd :=
    ((t.channels (c.linkId x)).nextLinkSeq, message, [])
  let gone := (t₀.setRouter (c.rid x) emptied).sendOn (c.linkId x) message
  have hparcels : (flushParcels info (routerFlush info depth) (c.rid x)).run
      (t₀.setRouter (c.rid x) holding) = .ok ⟨⟩ gone := by
    rw [flushParcels_run hholding hcollect, RouteTables.setRouter_setRouter]
    exact run_bind_of_ok hsend
  have hmemory : gone.memories (c.linkId x) = m := Function.update_self ..
  obtain ⟨t', hflush, hpasses⟩ := flush_passes hinfo hstate (.inr rfl) hholding hparcels hemptied
    (rfl : inbound.drain = ([], inbound)) ((sendOn_broken ..).trans h.intact)
  rw [List.map_nil, List.append_nil] at hpasses
  have hrest := hpasses.grows
  rw [hmemory] at hrest
  have hheld : HeldApart c.buffers m [entry] := by
    intro msg hmsg p hp hnull
    obtain rfl := List.mem_singleton.mp hmsg
    obtain rfl := RouteMessage.acceptParcel.inj hp
    cases fragment with
    | none => cases hnull
    | some f => exact (hwritten f rfl).2.2
  have hbrought : contents m [entry] = [data] := by
    cases fragment with
    | none => rfl
    | some f =>
        obtain ⟨hnull, hdata, -⟩ := hwritten f rfl
        show [if f.isNull = true then [] else m.parcels f.key] = [data]
        rw [if_neg (Bool.eq_false_iff.mp hnull), hdata]
  obtain ⟨hapart, hsame⟩ := hheld.grows hrest
  obtain ⟨added, hadded, hcontents, haddedApart⟩ := hpasses.sent
  refine ⟨fragment, t', ?_, hpasses.shows, ⟨entry :: added, ?_, ?_, ?_⟩,
    hgrows.trans hrest⟩
  · have hpush : (endRouter (some (c.link x)) messages inbound ⟨e.sent, e.final, []⟩ closed
        ).acceptOutbound parcel = some holding := congrArg (Option.map _) (push_next rfl)
    have hr₀ : t₀.routers (c.rid x) =
        some (endRouter (some (c.link x)) messages inbound ⟨e.sent, e.final, []⟩ closed) := hr
    refine (put_run hr ?_ hr₀ hpush).trans (run_bind_of_ok hflush)
    rw [← hfragment]
    cases data.isEmpty <;> rfl
  · rw [hadded, sendOn_sent, List.append_assoc]
    rfl
  · exact (contents_append _ [_] added).trans (by rw [hsame, hbrought, hcontents]; rfl)
  · exact hapart.append haddedApart

/-- What an end sends when data is put into it. -/
def Teardown.RouteEnd.sends (e : RouteEnd) (data : List UInt8) : List (List UInt8) :=
  if e.linked then [data] else []

theorem put_passes (depth : Nat) (hinfo : c.HoldsInfo x info)
    (hstate : c.buffers.fragment c.state = .ok ()) (hbuffers : c.buffers.WellFormed)
    (h : c.HoldsEnd x e locked t) (honce : (t.memories (c.linkId x)).FreeOnce c.buffers)
    (hshows : c.Shows x t messages) (data : List UInt8) :
    ∃ fragment t', (put info (routerFlush info (depth + 1)) (c.rid x) data []).run t =
        .ok fragment t' ∧ c.Passes x t t' messages (e.sends data) := by
  rw [RouteEnd.sends]
  cases hlinked : e.linked with
  | false => exact put_unlinked_passes depth hinfo hstate h hshows hlinked data
  | true => exact put_linked_passes depth hinfo hstate hbuffers h honce hshows hlinked data

end Operations

/-! ### What comes to an end -/

section Arrivals

variable {c : CentralLink} {x : LinkSide} {e : RouteEnd} {locked : Bool} {s : RoutingAcceptor}
  {messages : List (List UInt8 × List Object)} {n : Nat}

/-- The data of a parcel, from the message or from the memory. -/
theorem parcelData_brought {memories : Nat → SharedMemory} (hinfo : c.HoldsInfo x s.info)
    (hm : (memories (c.linkId x)).Placed c.buffers) {fragment : FragmentDescriptor}
    (hfragment : fragment = .null ∨ c.buffers.IsBlock fragment) (data : List UInt8) :
    parcelData s.info memories (routeParcelMessage c.sublink n fragment data) (c.linkId x) =
      .ok (if fragment.isNull then data else (memories (c.linkId x)).parcels fragment.key) := by
  obtain ⟨name, hlink⟩ := hinfo.link
  rw [parcelData]
  show (if fragment.isNull = true then _ else _) = _
  cases hnull : fragment.isNull with
  | true => rfl
  | false =>
      obtain rfl | hblock := hfragment
      · cases hnull
      · rw [registryFor, hlink]
        show Except.mapError _ (SharedMemory.readParcelFragment _ _ fragment) = _
        rw [SharedMemory.readParcelFragment_block hm hblock]
        rfl

/-- An end that has lost its link refuses a parcel. -/
theorem parcel_refused (depth : Nat) (hinfo : c.HoldsInfo x s.info)
    (h : c.HoldsEnd x e locked s.tables) (hlinked : e.linked = false)
    {fragment : FragmentDescriptor} (hfragment : fragment = .null ∨ c.buffers.IsBlock fragment)
    (data : List UInt8) :
    (dispatch (depth + 2)
        (.acceptParcel (routeParcelMessage c.sublink n fragment data)) [] (c.linkId x)).run s =
      .error (.badParcel "parcel for unbound sublink") s := by
  rw [dispatch_parcel (depth + 1)
    (parcelData_brought (n := n) hinfo h.memory.placed hfragment data)]
  obtain ⟨r, hr, messages, outbound, closed, rfl, -⟩ := h.router
  rw [hlinked] at hr
  generalize (if fragment.isNull = true then data else _) = payload
  have hrefused : (acceptAt (c.rid x) (c.linkId x) (routeParcelMessage c.sublink n fragment data)
        payload []).run s.tables = .error (.badParcel "parcel for unbound sublink") s.tables :=
    acceptUnbound_run hr rfl rfl
  unfold routeParcel
  rw [run_get_bind]
  dsimp only [routeParcelMessage] at hrefused ⊢
  rw [h.owner]
  dsimp only
  rw [EStateM.run_bind, inTables_of_error hrefused]

/-- The portal of an end with its link gets the data of the next parcel. -/
theorem parcel_passes (depth : Nat) (hinfo : c.HoldsInfo x s.info)
    (hstate : c.buffers.fragment c.state = .ok ()) (h : c.HoldsEnd x e locked s.tables)
    (hshows : c.Shows x s.tables messages) (hlinked : e.linked = true)
    {fragment : FragmentDescriptor} (hfragment : fragment = .null ∨ c.buffers.IsBlock fragment)
    (data : List UInt8) :
    ∃ t', (dispatch (depth + 2)
        (.acceptParcel (routeParcelMessage c.sublink e.received fragment data)) []
          (c.linkId x)).run s = .ok ⟨⟩ { s with tables := t' } ∧
      c.Passes x s.tables t' (messages ++ [(if fragment.isNull then data else
        (s.tables.memories (c.linkId x)).parcels fragment.key, [])]) [] := by
  have hpayload := parcelData_brought (n := e.received) hinfo h.memory.placed hfragment data
  obtain ⟨outbound, closed, hr, -, -, hbuffer⟩ := h.showing hshows
  have hcollect : outbound.collect ⟨some (c.link x), none⟩ = ([], outbound) := by
    have hquiet := collect_quiet (c := c) (x := x) hbuffer
    rwa [hlinked, if_pos rfl] at hquiet
  rw [dispatch_parcel (depth + 1) hpayload]
  generalize (if fragment.isNull = true then data else _) = payload
  rw [hlinked, if_pos rfl] at hr
  have hon : (endRouter (some (c.link x)) messages ⟨e.received, e.peerFinal, []⟩ outbound
      closed).outward.on (c.linkId x) c.sublink = true := by
    simp [Edge.on, endRouter, CentralLink.link, Link.remote, Link.on]
  have haccept : (endRouter (some (c.link x)) messages ⟨e.received, e.peerFinal, []⟩ outbound
        closed).acceptInbound ⟨e.received, payload, [], none⟩ =
      some (endRouter (some (c.link x)) messages ⟨e.received, e.peerFinal,
        [⟨e.received, payload, [], none⟩]⟩ outbound closed) :=
    congrArg (Option.map _) (push_next rfl)
  have hroute := routeParcel_run (depth + 1) h.owner (acceptInbound_run
    (p := routeParcelMessage c.sublink e.received fragment data) hr hon haccept)
  obtain ⟨t', hflush, hpasses⟩ := flush_changed_passes depth messages
    ⟨e.received, e.peerFinal, [⟨e.received, payload, [], none⟩]⟩ outbound closed hinfo hstate
    (.inr rfl) hcollect (drain_next rfl) h.intact
  refine ⟨t', ?_, hpasses⟩
  rw [hroute, RoutingAcceptor.replaceAndFlush, inTables_of_ok hflush]

/-- The closure of the other end brings no data. -/
theorem routeClosed_passes (depth : Nat) (hinfo : c.HoldsInfo x s.info)
    (hstate : c.buffers.fragment c.state = .ok ()) (h : c.HoldsEnd x e locked s.tables)
    (hshows : c.Shows x s.tables messages) (hlinked : e.linked = true) (hn : e.received ≤ n) :
    ∃ t', (dispatch (depth + 1) (.routeClosed c.sublink n) [] (c.linkId x)).run s =
          .ok ⟨⟩ { s with tables := t' } ∧
      c.Passes x s.tables t' messages [] := by
  obtain ⟨outbound, closed, hr, -, -, hbuffer⟩ := h.showing hshows
  have hcollect : outbound.collect ⟨some (c.link x), none⟩ = ([], outbound) := by
    have hquiet := collect_quiet (c := c) (x := x) hbuffer
    rwa [hlinked, if_pos rfl] at hquiet
  rw [hlinked, if_pos rfl] at hr
  have hnumber : (endRouter (some (c.link x)) messages ⟨e.received, e.peerFinal, []⟩ outbound
      closed).outwardHasNumber c.sublink = true := by
    simp [Router.outwardHasNumber, endRouter, CentralLink.link, Link.remote]
  have hclose : (endRouter (some (c.link x)) messages ⟨e.received, e.peerFinal, []⟩ outbound
      closed).closeInbound n =
        some (endRouter (some (c.link x)) messages ⟨e.received, some n, []⟩ outbound true) := by
    rw [Router.closeInbound]
    dsimp only [endRouter]
    rw [ParcelQueue.setFinalSequenceLength, if_neg (Nat.not_lt.mpr hn)]
    rfl
  obtain ⟨t', hflush, hpasses⟩ := flush_changed_passes depth messages ⟨e.received, some n, []⟩
    outbound true hinfo hstate (.inr rfl) hcollect rfl h.intact
  rw [List.map_nil, List.append_nil] at hpasses
  refine ⟨t', ?_, hpasses⟩
  rw [dispatch_routeClosed h.owner,
    inTables_of_ok ((closeInbound_run hr hnumber hclose).trans hflush)]

end Arrivals

/-! ### Who still takes data -/

namespace Teardown

/-- An end that still takes data, or that has taken all. -/
def RouteEnd.Awaits (e : RouteEnd) : Prop := e.linked = true ∨ e.final = none

section Ends

variable {t : Route} {e : RouteEnd} {locked : Bool} {x y : LinkSide}

theorem settle_linked (h : (e.settle locked).1.linked = true) : e.linked = true := by
  rw [RouteEnd.settle] at h
  cases hlinked : e.linked with
  | true => rfl
  | false =>
      rw [hlinked] at h
      exact absurd (hlinked.symm.trans h) Bool.false_ne_true

theorem put_final (e : RouteEnd) (locked : Bool) : (e.put locked).1.final = e.final := by
  cases hlinked : e.linked with
  | false => rw [put_unlinked hlinked]
  | true =>
      rw [RouteEnd.put, if_pos hlinked]
      exact settle_final _ _

theorem receive_final (e : RouteEnd) (locked : Bool) (m : Msg) :
    (e.receive locked m).1.final = e.final := by
  cases hlinked : e.linked with
  | false => rw [receive_unlinked hlinked]
  | true =>
      cases m with
      | parcel n =>
          rw [(receive_linked hlinked n).1]
          exact settle_final _ _
      | closed n =>
          rw [(receive_linked hlinked n).2]
          exact settle_final _ _

theorem Awaits.of_put (h : (e.put locked).1.Awaits) : e.Awaits := by
  refine h.imp (fun hlinked => ?_) fun hfinal => (put_final e locked).symm.trans hfinal
  cases he : e.linked with
  | true => rfl
  | false => rwa [put_unlinked he, he] at hlinked

theorem Awaits.of_close (h : (e.close locked).1.Awaits) : e.Awaits := by
  refine .inl (h.elim (fun hlinked => ?_) fun hfinal => ?_)
  · exact settle_linked (e := { e with final := some e.sent }) hlinked
  · rw [RouteEnd.close, settle_final] at hfinal
    cases hfinal

theorem Awaits.of_receive {m : Msg} (h : (e.receive locked m).1.Awaits) : e.Awaits := by
  refine h.imp (fun hlinked => ?_) fun hfinal => (receive_final e locked m).symm.trans hfinal
  cases he : e.linked with
  | true => rfl
  | false => rwa [receive_unlinked he, he] at hlinked

/-- Only closing closes an end. -/
theorem step_open_iff (t : Route) (m : Move) (y : LinkSide) :
    ((t.step m).ends y).final = none ↔ (t.ends y).final = none ∧ m ≠ .close y := by
  have happly (t' : Route) (r : RouteEnd × Bool × List Msg) (x : LinkSide)
      (hends : t'.ends = t.ends) (hr : r.1.final = (t.ends x).final) :
      ((t'.apply x r).ends y).final = (t.ends y).final := by
    obtain rfl | rfl := x.eq_or_opposite y
    · rw [apply_self, hr]
    · rw [apply_opposite, hends]
  cases m with
  | put x =>
      rw [Route.step, Route.put, happly t _ x rfl (put_final _ _)]
      simp
  | close x =>
      obtain rfl | rfl := x.eq_or_opposite y
      · have hclosed := close_final t y
        rw [Route.step, Option.eq_none_iff_forall_ne_some]
        refine iff_of_false (fun h => ?_) fun h => h.2 rfl
        rw [Option.eq_none_iff_forall_ne_some.mpr h] at hclosed
        cases hclosed
      · rw [Route.step, Route.close, apply_opposite]
        simp [x.opposite_ne.symm]
  | deliver x =>
      rw [Route.step]
      cases hwire : t.wire x with
      | nil =>
          rw [deliver_nil hwire]
          simp
      | cons m ms =>
          rw [deliver_cons hwire, happly (t.setWire x ms) _ x rfl (receive_final _ _ _)]
          simp

/-- The end across from one that awaits data has its link until it closes. -/
theorem linked_iff_open (h : Sound t ∨ Crossed t) (hx : (t.ends x).Awaits) :
    (t.ends x.opposite).linked = true ↔ (t.ends x.opposite).final = none := by
  have hapart {y : LinkSide} (hunlinked : (t.ends y).linked = false)
      (hfinal : (t.ends y).final.isSome) :
      (t.ends x.opposite).linked = true ↔ (t.ends x.opposite).final = none := by
    obtain rfl | rfl := x.eq_or_opposite y
    · obtain hlinked | hnone := hx
      · exact absurd (hunlinked.symm.trans hlinked) Bool.false_ne_true
      · rw [hnone] at hfinal
        cases hfinal
    · refine iff_of_false (by rw [hunlinked]; exact Bool.false_ne_true) fun hnone => ?_
      rw [hnone] at hfinal
      cases hfinal
  obtain (h | ⟨y, h, -⟩ | ⟨y, h, -⟩) | (⟨y, h, -⟩ | ⟨y, h, -, -⟩) := h
  · exact iff_of_true (h.linked _) (h.final _)
  · exact hapart h.unlinked h.final
  · exact hapart h.unlinked h.final
  · exact hapart h.unlinked h.final
  · exact hapart h.unlinked h.final

/-- Nothing comes to an end that has given its link up without closing. -/
theorem wire_nil_of_unlinked (h : Sound t ∨ Crossed t) (hlinked : (t.ends x).linked = false)
    (hopen : (t.ends x).final = none) : t.wire x = [] := by
  have hclosing {y : LinkSide} (h : Closing y t) : t.wire x = [] := by
    obtain rfl | rfl := y.eq_or_opposite x
    · exact absurd h.final (by rw [hopen]; exact Bool.false_ne_true)
    · exact absurd (hlinked.symm.trans h.linked) Bool.false_ne_true
  have htold {y : LinkSide} (h : Told y t) : t.wire x = [] := by
    obtain rfl | rfl := y.eq_or_opposite x
    · exact absurd h.final (by rw [hopen]; exact Bool.false_ne_true)
    · exact h.wire
  obtain (h | ⟨y, h, -⟩ | ⟨y, h, -⟩) | (⟨y, h, -⟩ | ⟨y, h, -, -⟩) := h
  · exact absurd (hlinked.symm.trans (h.linked x)) Bool.false_ne_true
  · exact hclosing h
  · exact htold h
  · exact hclosing h
  · exact htold h

end Ends

end Teardown

/-! ### The two nodes -/

/-- What an application puts in at end `x` before it closes it. -/
def putBefore (x : LinkSide) : List JoinedOp → List (List UInt8)
  | [] => []
  | .put y data :: ops => if y = x then data :: putBefore x ops else putBefore x ops
  | .close y :: ops => if y = x then [] else putBefore x ops
  | .deliver _ :: ops => putBefore x ops

namespace JoinedNodes

variable (c : CentralLink)

/-- The memory of the link as end `x` sees it. -/
def memory (s : JoinedNodes) (x : LinkSide) : SharedMemory :=
  (s.node x).tables.memories (c.linkId x)

/-- The messages in the portal of end `x`. -/
def shown (s : JoinedNodes) (x : LinkSide) : List (List UInt8 × List Object) :=
  match (s.node x).tables.routers (c.rid x) with
  | some r => (r.portal.map (·.messages)).getD []
  | none => []

/-- Where the data is that has been put in so far.  What a portal does not hold
yet is on its way to it, as long as its end awaits data. -/
structure Logged (portal : LinkSide → List (List UInt8 × List Object))
    (log : LinkSide → List (List UInt8)) (t : Route) (s : JoinedNodes) : Prop where
  simulates : s.Simulates c t
  shared : ∀ x, s.memory c x.opposite = s.memory c x
  once : ∀ x, (s.memory c x).FreeOnce c.buffers
  apart : ∀ x, HeldApart c.buffers (s.memory c x) (s.inFlight c x)
  delivered : ∀ x, ∃ delivered rest,
    c.Shows x (s.node x).tables (portal x ++ delivered.map fun data => (data, [])) ∧
    log x.opposite = delivered ++ rest ∧
    ((t.ends x).Awaits → rest = contents (s.memory c x) (s.inFlight c x))

end JoinedNodes

/-- The data put in so far, after one more operation. -/
def JoinedOp.log (t : Route) (log : LinkSide → List (List UInt8)) :
    JoinedOp → LinkSide → List (List UInt8)
  | .put x data => if (t.ends x).final = none then update log x (log x ++ [data]) else log
  | .close _ => log
  | .deliver _ => log

section Nodes

variable {c : CentralLink} {t t' : Route} {s s₁ : JoinedNodes} {x : LinkSide}
  {portal : LinkSide → List (List UInt8 × List Object)} {log log' : LinkSide → List (List UInt8)}

theorem CentralLink.Shows.shown {messages : List (List UInt8 × List Object)}
    (h : c.Shows x (s.node x).tables messages) : s.shown c x = messages := by
  obtain ⟨primary, inbound, outbound, closed, hr⟩ := h
  rw [JoinedNodes.shown, hr]
  rfl

namespace JoinedNodes.Logged

/-- An end has worked, in a state that differs at most in what it has taken.
Its portal got `new`, and it has sent `sent`. -/
theorem runAt (h : s.Logged c portal log t) (new : List (List UInt8)) {tables : RouteTables}
    {messages : List (List UInt8 × List Object)} {sent : List (List UInt8)}
    (hnode : s₁.node = s.node) (hother : s₁.received x.opposite = s.received x.opposite)
    (hsub : ∃ taken, s.inFlight c x = taken ++ s₁.inFlight c x)
    (hsim : (s₁.runAt c x { s.node x with tables }).Simulates c t')
    (hends : t'.ends x.opposite = t.ends x.opposite)
    (hshows : c.Shows x (s.node x).tables messages)
    (hpasses : c.Passes x (s.node x).tables tables
      (messages ++ new.map fun data => (data, [])) sent)
    (hnew : (t.ends x).Awaits → contents (s.memory c x) (s.inFlight c x) =
      new ++ contents (s.memory c x) (s₁.inFlight c x))
    (hdead : ¬(t.ends x).Awaits → new = [])
    (hawaits : (t'.ends x).Awaits → (t.ends x).Awaits)
    (hlog : log' x.opposite = log x.opposite)
    (hput : ∃ put, log' x = log x ++ put ∧ ((t.ends x.opposite).Awaits → put = sent)) :
    (s₁.runAt c x { s.node x with tables }).Logged c portal log' t' := by
  obtain ⟨added, hadded, hcontents, happart⟩ := hpasses.sent
  have hgrows : SharedMemory.Grows c.buffers (s.memory c x) (tables.memories (c.linkId x)) :=
    hpasses.grows
  have hgrows' : SharedMemory.Grows c.buffers (s.memory c x.opposite)
      (tables.memories (c.linkId x)) := by rwa [h.shared x]
  -- both ends read one memory, which is now the one of `tables`
  have hself : (s₁.runAt c x { s.node x with tables }).memory c x = tables.memories (c.linkId x) := by
    rw [memory, runAt_self]
  have hopposite : (s₁.runAt c x { s.node x with tables }).memory c x.opposite =
      tables.memories (c.linkId x) := by
    rw [memory, runAt_opposite]
    exact Function.update_self ..
  -- what was sent is behind what was on its way to the other end
  have hflight : (s₁.runAt c x { s.node x with tables }).inFlight c x.opposite =
      s.inFlight c x.opposite ++ added := by
    have hreceived := h.simulates.received x.opposite
    rw [LinkSide.opposite_opposite, ← hnode, ← hother] at hreceived
    rw [← hnode] at hadded
    rw [inFlight_runAt_opposite hreceived hadded, inFlight, inFlight, hnode, hother]
  have hflightSelf := inFlight_runAt_self (c := c) s₁ x { s.node x with tables }
  -- what is still on its way to this end keeps its blocks
  obtain ⟨taken, htaken⟩ := hsub
  have hrest : HeldApart c.buffers (s.memory c x) (s₁.inFlight c x) := fun msg hmsg =>
    h.apart x msg (htaken ▸ List.mem_append_right _ hmsg)
  obtain ⟨hapart, hsame⟩ := hrest.grows hgrows
  obtain ⟨hapart', hsame'⟩ := (h.apart x.opposite).grows hgrows'
  refine ⟨hsim, ?shared, ?once, ?apart, ?delivered⟩
  all_goals rw [LinkSide.forall_iff x]
  case shared => simp only [LinkSide.opposite_opposite, hself, hopposite, and_self]
  case once =>
    rw [hself, hopposite, and_self]
    exact hgrows.once (h.once x)
  case apart =>
    rw [hself, hopposite, hflightSelf, hflight]
    exact ⟨hapart, hapart'.append happart⟩
  -- for each end: delivered, and on its way if it still waits
  case delivered =>
    rw [hself, hopposite, hflightSelf, hflight, runAt_self, runAt_opposite, hlog, hends,
      LinkSide.opposite_opposite, hsame, contents_append, hsame', hcontents, hnode]
    obtain ⟨delivered, rest, hshown, hlogged, hwaits⟩ := h.delivered x
    obtain ⟨delivered', rest', hshown', hlogged', hwaits'⟩ := h.delivered x.opposite
    rw [LinkSide.opposite_opposite] at hlogged'
    obtain ⟨put, hput, hsent⟩ := hput
    obtain rfl := hshows.unique hshown
    constructor
    -- an end that does not wait has got nothing, and what is on its way is lost
    · by_cases hx : (t.ends x).Awaits
      · refine ⟨delivered ++ new, contents (s.memory c x) (s₁.inFlight c x), ?_, ?_, fun _ => rfl⟩
        · rw [List.map_append, ← List.append_assoc]
          exact hpasses.shows
        · rw [hlogged, hwaits hx, hnew hx, List.append_assoc]
      · refine ⟨delivered, rest, ?_, hlogged, fun hx' => absurd (hawaits hx') hx⟩
        have hshows' := hpasses.shows
        rwa [hdead hx, List.map_nil, List.append_nil] at hshows'
    -- what is put goes to the end of what the other end is owed
    · refine ⟨delivered', rest' ++ put, hshown', ?_, fun hx => ?_⟩
      · rw [hput, hlogged', List.append_assoc]
      · rw [hwaits' hx, hsent hx]

/-- The next message comes to an end. -/
theorem deliver (h : s.Logged c portal log t) (hstate : c.buffers.fragment c.state = .ok ())
    (hphase : Sound t ∨ Crossed t) (depth : Nat)
    (hsim : (s.deliver c (depth + 2) x).Simulates c (t.deliver x)) :
    (s.deliver c (depth + 2) x).Logged c portal log (t.deliver x) := by
  obtain ⟨delivered, rest, hshows, -⟩ := h.delivered x
  have hwires := h.simulates.wire x
  unfold JoinedNodes.deliver at hsim ⊢
  cases hwire : t.wire x with
  -- nothing is on its way
  | nil =>
      rw [hwire, List.forall₂_nil_left_iff] at hwires
      rw [deliver_nil hwire, hwires]
      exact h
  -- the head of the wire is the message that comes
  | cons m ms =>
      rw [hwire] at hwires
      obtain ⟨⟨seq, msg, fds⟩, messages, hcarries, -, hflight⟩ :=
        List.forall₂_cons_left_iff.mp hwires
      rw [hflight] at hsim ⊢
      dsimp only at hsim ⊢
      have htaken : (s.takes x).inFlight c x = messages := by
        show List.drop (update s.received x (s.received x + 1) x) _ = _
        rw [Function.update_self, ← List.tail_drop]
        exact congrArg List.tail hflight
      have hother : (s.takes x).received x.opposite = s.received x.opposite :=
        Function.update_of_ne x.opposite_ne ..
      have hsub : ∃ taken, s.inFlight c x = taken ++ (s.takes x).inFlight c x :=
        ⟨[(seq, msg, fds)], by rw [hflight, htaken]; rfl⟩
      have hself : (t.deliver x).ends x = ((t.ends x).receive t.locked m).1 := by
        rw [deliver_cons hwire, apply_self]
      have hends : (t.deliver x).ends x.opposite = t.ends x.opposite := by
        rw [deliver_cons hwire, apply_opposite, setWire_ends]
      have hawaits (hx : ((t.deliver x).ends x).Awaits) : (t.ends x).Awaits := by
        rw [hself] at hx
        exact Awaits.of_receive hx
      cases hlinked : (t.ends x).linked with
      | false =>
          -- the message is lost: the end has closed, for else nothing would be on its way
          have hdead : ¬(t.ends x).Awaits := by
            rintro (hlinked' | hopen)
            · exact absurd (hlinked.symm.trans hlinked') Bool.false_ne_true
            · have hnil := wire_nil_of_unlinked hphase hlinked hopen
              rw [hwire] at hnil
              cases hnil
          cases hcarries with
          | @parcel n seq fragment data hfragment =>
              have hrun := parcel_refused (n := n) depth (h.simulates.info x) (h.simulates.ends x)
                hlinked hfragment data
              rw [routeParcelMessage] at hrun
              rw [hrun] at hsim ⊢
              refine h.runAt [] rfl hother hsub hsim hends hshows
                (passes_quiet (by rwa [List.map_nil, List.append_nil]) rfl rfl)
                (fun hx => absurd hx hdead) (fun _ => rfl) hawaits rfl
                ⟨[], (List.append_nil _).symm, fun _ => rfl⟩
          | closed =>
              obtain ⟨hlinked', -⟩ := closed_head hphase hwire
              exact absurd (hlinked.symm.trans hlinked') Bool.false_ne_true
      -- the end has its link: a parcel goes to the portal, a closure settles the end
      | true =>
          cases hcarries with
          | @parcel n seq fragment data hfragment =>
              obtain rfl := parcel_head hphase hlinked hwire
              obtain ⟨tables, hrun, hpasses⟩ := parcel_passes depth (h.simulates.info x) hstate
                (h.simulates.ends x) hshows hlinked hfragment data
              rw [routeParcelMessage] at hrun
              rw [hrun] at hsim ⊢
              refine h.runAt [_] rfl hother hsub hsim hends hshows hpasses (fun _ => ?_)
                (fun hx => absurd (.inl hlinked) hx) hawaits rfl
                ⟨[], (List.append_nil _).symm, fun _ => rfl⟩
              rw [htaken, hflight]
              rfl
          | closed =>
              obtain ⟨-, hle⟩ := closed_head hphase hwire
              obtain ⟨tables, hrun, hpasses⟩ := routeClosed_passes (depth + 1) (h.simulates.info x)
                hstate (h.simulates.ends x) hshows hlinked hle
              rw [hrun] at hsim ⊢
              rw [← List.append_nil (_ ++ _)] at hpasses
              refine h.runAt [] rfl hother hsub hsim hends hshows hpasses (fun _ => ?_)
                (fun _ => rfl) hawaits rfl ⟨[], (List.append_nil _).symm, fun _ => rfl⟩
              rw [htaken, hflight]
              rfl

/-- A step of the nodes moves the data along. -/
theorem step (h : s.Logged c portal log t) (hstate : c.buffers.fragment c.state = .ok ())
    (hbuffers : c.buffers.WellFormed) (hphase : Sound t ∨ Crossed t) (depth : Nat)
    (op : JoinedOp) :
    (s.step c (depth + 2) op).Logged c portal (op.log t log) (t.step op.move) := by
  have hsim := h.simulates.step hstate hbuffers hphase depth op
  cases op with
  -- data of an end that is open is sent, one that closed refuses it
  | put x data =>
      obtain ⟨delivered, rest, hshows, -⟩ := h.delivered x
      obtain ⟨fragment, tables, hrun, hpasses⟩ := put_passes (depth + 1) (h.simulates.info x)
        hstate hbuffers (h.simulates.ends x) (h.once x) hshows data
      have hstep : s.step c (depth + 2) (.put x data) =
          s.runAt c x { s.node x with tables } := by
        show s.runAt c x (endState _) = _
        rw [inTables_of_ok hrun]
        rfl
      rw [hstep] at hsim ⊢
      have hself : t.step (JoinedOp.put x data).move = t.apply x ((t.ends x).put t.locked) := rfl
      rw [← List.append_nil (_ ++ _)] at hpasses
      refine h.runAt [] rfl rfl ⟨[], rfl⟩ hsim (apply_opposite ..) hshows hpasses
        (fun _ => rfl) (fun _ => rfl) (fun hx => ?_) ?_ ?_
      · rw [hself, apply_self] at hx
        exact Awaits.of_put hx
      -- the log of the other end stays
      · rw [JoinedOp.log]
        split
        · exact Function.update_of_ne x.opposite_ne ..
        · rfl
      -- what is logged is sent, while the other end waits for it
      · rw [JoinedOp.log]
        by_cases hopen : (t.ends x).final = none
        · refine ⟨[data], by rw [if_pos hopen, Function.update_self], fun hx => ?_⟩
          have hlinked := linked_iff_open hphase hx
          rw [LinkSide.opposite_opposite] at hlinked
          rw [RouteEnd.sends, if_pos (hlinked.mpr hopen)]
        · refine ⟨[], by rw [if_neg hopen, List.append_nil], fun hx => ?_⟩
          have hlinked := linked_iff_open hphase hx
          rw [LinkSide.opposite_opposite] at hlinked
          rw [RouteEnd.sends, if_neg fun hx' => hopen (hlinked.mp hx')]
  -- a close sends no data
  | close x =>
      obtain ⟨delivered, rest, hshows, -⟩ := h.delivered x
      obtain ⟨tables, hrun, hpasses⟩ := close_passes (depth + 1) (h.simulates.info x)
        hstate (h.simulates.ends x) hshows
      have hstep : s.step c (depth + 2) (.close x) = s.runAt c x { s.node x with tables } := by
        show s.runAt c x (endState _) = _
        rw [inTables_of_ok hrun]
        rfl
      rw [hstep] at hsim ⊢
      have hself : t.step (JoinedOp.close x).move = t.apply x ((t.ends x).close t.locked) := rfl
      rw [← List.append_nil (_ ++ _)] at hpasses
      refine h.runAt [] rfl rfl ⟨[], rfl⟩ hsim (apply_opposite ..) hshows hpasses
        (fun _ => rfl) (fun _ => rfl) (fun hx => ?_) rfl ⟨[], (List.append_nil _).symm, fun _ => rfl⟩
      rw [hself, apply_self] at hx
      exact Awaits.of_close hx
  | deliver x => exact h.deliver hstate hphase depth hsim

/-- A run of the nodes, for all that is put in before an end closes. -/
theorem exec (h : s.Logged c portal log t) (hstate : c.buffers.fragment c.state = .ok ())
    (hbuffers : c.buffers.WellFormed) (hphase : Sound t ∨ Crossed t) (depth : Nat)
    (ops : List JoinedOp) :
    (Lib.exec (JoinedNodes.step c (depth + 2)) s ops).Logged c portal
      (fun y => log y ++ if (t.ends y).final = none then putBefore y ops else [])
      (Lib.exec Route.step t (ops.map JoinedOp.move)) := by
  induction ops generalizing s t log with
  | nil =>
      have hlog : (fun y => log y ++ if (t.ends y).final = none then putBefore y [] else []) =
          log := by
        funext y
        rw [putBefore, ite_self, List.append_nil]
      rw [hlog]
      exact h
  | cons op ops ih =>
      have hrun := ih (h.step hstate hbuffers hphase depth op) (phase_step hphase op.move)
      refine (funext fun y => ?_ : _ = fun y => log y ++ _) ▸ hrun
      -- an end is open after the step if it was and this is not its close
      have hopen := step_open_iff t op.move y
      cases op with
      | put x data =>
          rw [JoinedOp.log, putBefore]
          by_cases hy : (t.ends y).final = none
          · rw [if_pos (hopen.mpr ⟨hy, nofun⟩), if_pos hy]
            by_cases hx : x = y
            · rw [hx, if_pos hy, if_pos rfl, Function.update_self, List.append_assoc]
              rfl
            · rw [if_neg hx]
              split
              · rw [Function.update_of_ne (Ne.symm hx)]
              · rfl
          · rw [if_neg fun hy' => hy (hopen.mp hy').1, if_neg hy, List.append_nil, List.append_nil]
            split
            · rw [Function.update_of_ne]
              rintro rfl
              contradiction
            · rfl
      | close x =>
          rw [JoinedOp.log, putBefore]
          by_cases hy : (t.ends y).final = none
          · by_cases hx : x = y
            · rw [if_neg fun hy' => (hopen.mp hy').2 (congrArg Move.close hx), if_pos hy, if_pos hx]
            · rw [if_pos (hopen.mpr ⟨hy, fun hclose => hx (Move.close.inj hclose)⟩), if_pos hy,
                if_neg hx]
          · rw [if_neg fun hy' => hy (hopen.mp hy').1, if_neg hy]
      | deliver x =>
          rw [JoinedOp.log, putBefore]
          by_cases hy : (t.ends y).final = none
          · rw [if_pos (hopen.mpr ⟨hy, nofun⟩), if_pos hy]
          · rw [if_neg fun hy' => hy (hopen.mp hy').1, if_neg hy]

end JoinedNodes.Logged

/-- An end that never closes stays open. -/
theorem exec_open {ms : List Move} (h : (t.ends x).final = none) (hms : .close x ∉ ms) :
    ((exec Route.step t ms).ends x).final = none := by
  induction ms generalizing t with
  | nil => exact h
  | cons m ms ih =>
      rw [List.mem_cons, not_or] at hms
      exact ih ((step_open_iff t m x).mpr ⟨h, Ne.symm hms.1⟩) hms.2

theorem close_mem {ops : List JoinedOp} (h : Move.close x ∈ ops.map JoinedOp.move) :
    JoinedOp.close x ∈ ops := by
  obtain ⟨op, hop, hmove⟩ := List.mem_map.mp h
  cases op with
  | close y => exact Move.close.inj hmove ▸ hop
  | put y data => cases hmove
  | deliver y => cases hmove

theorem JoinedNodes.Joined.logged {sent : LinkSide → Nat} (h : s.Joined c sent)
    (honce : ∀ x, (s.memory c x).FreeOnce c.buffers) :
    s.Logged c (s.shown c) (fun _ => []) (openRoute sent) := by
  have hflight (x : LinkSide) : s.inFlight c x = [] := by
    rw [inFlight, List.drop_eq_nil_iff.mpr (h.received x).ge]
  refine ⟨h.simulates, h.shared, honce, fun x => ?_, fun x => ⟨[], [], ?_, rfl, fun _ => ?_⟩⟩
  · rw [hflight]
    exact fun _ hmsg => absurd hmsg List.not_mem_nil
  · obtain ⟨r, hr, messages, outbound, closed, rfl, -⟩ := (h.ends x).router
    have hshows : c.Shows x (s.node x).tables messages := ⟨_, _, _, _, hr⟩
    rwa [hshows.shown, List.map_nil, List.append_nil]
  · rw [hflight]
    rfl

/-- Each portal gets a prefix of what is put in at the other end before that
closes, in order, once and intact.  As long as its own end does not close, all
the rest is on its way. -/
theorem delivered_in_order (c : CentralLink) (sent : LinkSide → Nat) (s : JoinedNodes)
    (h : s.Joined c sent) (honce : ∀ x, (s.memory c x).FreeOnce c.buffers) (depth : Nat)
    (ops : List JoinedOp) (x : LinkSide) :
    ∃ delivered rest,
      (exec (JoinedNodes.step c (depth + 2)) s ops).shown c x =
        s.shown c x ++ delivered.map (fun data => (data, [])) ∧
      putBefore x.opposite ops = delivered ++ rest ∧
      (.close x ∉ ops → rest = contents ((exec (JoinedNodes.step c (depth + 2)) s ops).memory c x)
        ((exec (JoinedNodes.step c (depth + 2)) s ops).inFlight c x)) := by
  have hlogged := (h.logged honce).exec h.state h.buffers (.inl (.open (openRoute_open sent)))
    depth ops
  obtain ⟨delivered, rest, hshows, hlog, hwaits⟩ := hlogged.delivered x
  refine ⟨delivered, rest, hshows.shown, hlog, fun hclose => hwaits (.inr ?_)⟩
  exact exec_open rfl fun hmem => hclose (close_mem hmem)

end Nodes

/-! ### Fresh nodes again -/

theorem initialNodes_freeOnce (x : LinkSide) :
    (initialNodes.memory initialLink x).FreeOnce initialLink.buffers :=
  SharedMemory.fresh_freeOnce

/-- Two parcels, one of them in a block of the memory, and a closure. -/
def twoParcels : List JoinedOp :=
  [.put .a [1, 2, 3], .put .a [], .close .a, .put .a [4], .deliver .b, .deliver .b, .deliver .b]

theorem twoParcels_delivered :
    (exec (JoinedNodes.step initialLink 2) initialNodes twoParcels).shown initialLink .b =
      [([1, 2, 3], []), ([], [])] := by
  obtain ⟨delivered, rest, hshown, hput, hrest⟩ := delivered_in_order initialLink (fun _ => 0)
    initialNodes initialNodes_joined initialNodes_freeOnce 0 twoParcels .b
  -- nothing is on its way at the end
  have hquiet : (exec (JoinedNodes.step initialLink 2) initialNodes twoParcels).inFlight
      initialLink .b = [] := initialNodes_quiet (by decide) .b
  rw [hrest (by decide), hquiet, contents_nil, List.append_nil] at hput
  rw [hshown, ← hput]
  rfl

end MojoRs.Ipcz
