/-
MojoRs/Ipcz/BlockBuffers.lean

Parcels whose data lies in a buffer that has not arrived, and the
`AddBlockBuffer` messages that bring the buffers.  Every link has buffer ids
of its own; parcels are deferred by link and buffer.

`BelongsToLink` says what an `AddBlockBuffer` has to do: register the buffer
for the link it arrived on and for no other, process each parcel that was
deferred for it once, in their order, with its descriptors, and leave those
of other links alone.  `dispatch` adds every buffer to the memory of the
broker link, and a parcel that is refused takes the deferred parcels behind
it with it.  So along any run of parcels and buffers the law holds just as
long as every buffer arrives on that link and no deferred parcel but the last
is refused.

Main results: `processAcceptParcel_keeps`, `buffers_belong_iff`.
-/
import MojoRs.Ipcz.DispatchFrames
import MojoRs.Lib.Run

namespace MojoRs.Ipcz

open Function (update)
open Lib

namespace RoutingAcceptor

/-! ### What processing a parcel leaves alone -/

/-- Buffer `id` is known to link `linkId`. -/
def Resolves (s : RoutingAcceptor) (linkId : Nat) (id : UInt64) : Prop :=
  ∃ l reg, s.info.links linkId = some l ∧ l.memory = some reg ∧
    reg.bufferFor id ≠ .error .unknownBuffer

/-- Every deferred parcel waits for a buffer of its own link. -/
def OwnLink (s : RoutingAcceptor) : Prop :=
  ∀ key, ∀ entry ∈ s.pendingFragments key, entry.2.2 = key.1

/-- Processing parcels of link `linkId` registers no buffer, and defers only
parcels of this link whose buffer is not known. -/
structure DefersOn (linkId : Nat) (s s' : RoutingAcceptor) : Prop where
  info : s'.info = s.info
  pending : ∀ key, key.1 ≠ linkId ∨ s.Resolves linkId key.2 →
    s'.pendingFragments key = s.pendingFragments key
  ownLink : s.OwnLink → s'.OwnLink

namespace DefersOn

variable {linkId : Nat} {s s' s'' : RoutingAcceptor}

theorem refl (s : RoutingAcceptor) : DefersOn linkId s s := ⟨rfl, fun _ _ => rfl, id⟩

theorem trans (h : DefersOn linkId s s') (h' : DefersOn linkId s' s'') :
    DefersOn linkId s s'' := by
  refine ⟨h'.info.trans h.info, fun key hkey => ?_, fun ho => h'.ownLink (h.ownLink ho)⟩
  have hkey' : key.1 ≠ linkId ∨ s'.Resolves linkId key.2 := by
    rwa [Resolves, h.info]
  rw [h'.pending key hkey', h.pending key hkey]

instance : Std.Refl (DefersOn linkId) := ⟨refl⟩

instance : IsTrans RoutingAcceptor (DefersOn linkId) := ⟨fun _ _ _ => trans⟩

/-- A change that touches neither the links nor the deferred parcels. -/
theorem of_eq (hinfo : s'.info = s.info) (hpending : s'.pendingFragments = s.pendingFragments) :
    DefersOn linkId s s' :=
  ⟨hinfo, fun _ _ => by rw [hpending], fun ho => by rwa [OwnLink, hpending]⟩

end DefersOn

end RoutingAcceptor

open RoutingAcceptor

variable {linkId : Nat}

theorem keeps_inTables {α : Type} (f : NodeInfo → RouteM α) :
    Maintains (DefersOn linkId) (inTables f) := inTables_keeps (fun _ _ => .of_eq rfl rfl) f

/-- Deferring a parcel whose buffer is not known. -/
theorem deferParcel_keeps {s : RoutingAcceptor} {p : ParcelMessage} (fds : List OwnedFd)
    (h : parcelData s.info s.tables.memories p linkId = .error (.memory .unknownBuffer)) :
    DefersOn linkId s
      (s.deferParcel (linkId, p.parcelFragment.bufferId) (p, fds, linkId)) := by
  obtain ⟨l, reg, hl, hreg, hbuf⟩ := parcelData_unknown h
  refine ⟨rfl, fun key hkey => ?_, fun ho key entry hentry => ?_⟩
  · have hne : key ≠ (linkId, p.parcelFragment.bufferId) := by
      rintro rfl
      rcases hkey with hkey | ⟨l', reg', hl', hreg', hknown⟩
      · exact hkey rfl
      · rw [hl] at hl'
        injection hl' with hl'
        subst hl'
        rw [hreg] at hreg'
        injection hreg' with hreg'
        subst hreg'
        exact hknown hbuf
    exact Function.update_of_ne hne _ _
  · by_cases hne : key = (linkId, p.parcelFragment.bufferId)
    · subst hne
      have hentry : entry ∈ s.pendingFragments (linkId, p.parcelFragment.bufferId) ++
          [(p, fds, linkId)] := by
        simpa [deferParcel] using hentry
      rcases List.mem_append.mp hentry with hold | hnew
      · exact ho _ entry hold
      · rw [List.mem_singleton.mp hnew]
    · have hentry : entry ∈ s.pendingFragments key := by
        simpa [deferParcel, Function.update_of_ne hne] using hentry
      exact ho key entry hentry

theorem adoptRouter_defersOn (d : RouterDescriptor) (l : Nat) :
    Maintains (DefersOn linkId) (adoptRouter d l) := by
  unfold adoptRouter
  apply (keeps_inTables _).bind
  intro _
  cases d.toRouter l with
  | none => exact keeps_throw _
  | some r => exact fun _ => .of_eq rfl rfl

/-- Processing a parcel registers no buffer, and defers only parcels of its
own link. -/
theorem defersOn_framed (linkId : Nat) : Framed (DefersOn linkId) linkId :=
  .ofTables (fun _ _ => .of_eq rfl rfl) (fun _ _ _ => .of_eq rfl rfl)
    (fun d => adoptRouter_defersOn d linkId) fun _ _ fds h => deferParcel_keeps fds h

theorem resolveParcels_keeps (depth : Nat) {queued : List (ParcelMessage × List OwnedFd × Nat)}
    (h : ∀ entry ∈ queued, entry.2.2 = linkId) :
    Maintains (DefersOn linkId) (resolveParcels depth queued) := by
  apply keeps_forM
  rintro ⟨p, fds, l⟩ hmem
  obtain rfl : l = linkId := h _ hmem
  exact (processAcceptParcel_keeps (defersOn_framed l) depth p fds).bind fun _ => keeps_pure _

/-! ### Runs of parcels and buffers -/

/-- A parcel or a buffer arrives on a link. -/
inductive BufferOp
  | acceptParcel (p : ParcelMessage) (fds : List OwnedFd) (linkId : Nat)
  | addBlockBuffer (bufferId : UInt64) (blockSize bufferIndex : Nat) (fds : List OwnedFd)
      (linkId : Nat)

/-- The message that the operation dispatches. -/
def BufferOp.run (depth : Nat) : BufferOp → AcceptorM Unit
  | .acceptParcel p fds linkId => dispatch depth (.acceptParcel p) fds linkId
  | .addBlockBuffer bufferId blockSize bufferIndex fds linkId =>
      dispatch depth (.addBlockBuffer bufferId blockSize bufferIndex) fds linkId

/-- One operation, whether it fails or not. -/
def bufferStep (depth : Nat) (s : RoutingAcceptor) (op : BufferOp) : RoutingAcceptor :=
  endState ((op.run depth).run s)

namespace RoutingAcceptor

variable (s : RoutingAcceptor) (bufferId : UInt64) (blockSize bufferIndex : Nat)
  (fds : List OwnedFd)

/-- The memory of link `linkId` takes the buffer, and has then the registry
`reg`. -/
def Takes (linkId : Nat) (reg : BufferRegistry) : Prop :=
  ∃ fd old, fds[bufferIndex]? = some fd ∧ registryFor s.info linkId = .ok old ∧
    old.addBlockBuffer bufferId fd.size blockSize = .ok reg

/-- A deferred parcel is processed, with its descriptors. -/
def processDeferred (depth linkId : Nat) (entry : ParcelMessage × List OwnedFd × Nat) :
    AcceptorM Unit := do
  let _ ← processAcceptParcel depth entry.1 entry.2.1 linkId

/-- The buffer is registered in the memory of `memoryLink`, and nothing waits
for it on `linkId` any more. -/
def buffered (memoryLink linkId : Nat) (reg : BufferRegistry) : RoutingAcceptor :=
  { s.setRegistry memoryLink reg with
    pendingFragments := update s.pendingFragments (linkId, bufferId) [] }

/-- What `AddBlockBuffer` does on link `linkId`, whose memory has the registry
`reg` with the buffer. -/
structure BufferLaw (depth linkId : Nat) (reg : BufferRegistry) : Prop where
  registered : (bufferStep depth s (.addBlockBuffer bufferId blockSize bufferIndex fds linkId)
    ).info.links linkId = (s.info.links linkId).map fun l => { l with memory := some reg }
  resolves : (bufferStep depth s (.addBlockBuffer bufferId blockSize bufferIndex fds linkId)
    ).Resolves linkId bufferId
  nowhereElse : ∀ l, l ≠ linkId →
    (bufferStep depth s (.addBlockBuffer bufferId blockSize bufferIndex fds linkId)
      ).info.links l = s.info.links l
  processed : RunsThrough (processDeferred depth linkId) (s.pendingFragments (linkId, bufferId))
    (s.buffered bufferId linkId linkId reg)
    ((dispatch depth (.addBlockBuffer bufferId blockSize bufferIndex) fds linkId).run s)
  noneLeft : (bufferStep depth s (.addBlockBuffer bufferId blockSize bufferIndex fds linkId)
    ).pendingFragments (linkId, bufferId) = []
  othersDeferred : ∀ key, key.1 ≠ linkId →
    (bufferStep depth s (.addBlockBuffer bufferId blockSize bufferIndex fds linkId)
      ).pendingFragments key = s.pendingFragments key

end RoutingAcceptor

/-- Buffers belong to the link they arrive on: a parcel leaves other links
alone, and a buffer that the memory of its link takes obeys the law. -/
def BelongsToLink (depth : Nat) (s : RoutingAcceptor) : BufferOp → Prop
  | .acceptParcel p fds linkId =>
      DefersOn linkId s (bufferStep depth s (.acceptParcel p fds linkId))
  | .addBlockBuffer bufferId blockSize bufferIndex fds linkId =>
      ∀ reg, s.Takes bufferId blockSize bufferIndex fds linkId reg →
        s.BufferLaw bufferId blockSize bufferIndex fds depth linkId reg

/-- Of the parcels that wait for the buffer, none but the last is refused when
its turn comes. -/
def RoutingAcceptor.NoneRefused (s : RoutingAcceptor) (depth linkId : Nat) (bufferId : UInt64)
    (reg : BufferRegistry) : Prop :=
  EachTurn (processDeferred depth linkId)
    (fun entry s => ∃ s', (processDeferred depth linkId entry).run s = .ok ⟨⟩ s')
    (s.pendingFragments (linkId, bufferId)).dropLast (s.buffered bufferId linkId linkId reg)

/-- A buffer that the memory of its link takes arrives on the broker link, and
lets the parcels that wait for it through. -/
def OnBrokerLink (depth : Nat) (s : RoutingAcceptor) : BufferOp → Prop
  | .acceptParcel _ _ _ => True
  | .addBlockBuffer bufferId blockSize bufferIndex fds linkId =>
      ∀ reg, s.Takes bufferId blockSize bufferIndex fds linkId reg →
        linkId = linkIdBroker ∧ s.NoneRefused depth linkId bufferId reg

/-! ### What a buffer does -/

section AddBlockBuffer

variable {s : RoutingAcceptor} {bufferId : UInt64} {blockSize bufferIndex : Nat}
  {fds : List OwnedFd} {depth : Nat} {reg : BufferRegistry}

theorem BufferRegistry.addBlockBuffer_extra {old : BufferRegistry} {size : Nat}
    (h : old.addBlockBuffer bufferId size blockSize = .ok reg) :
    old.extra bufferId = none ∧ reg.extra bufferId = some ⟨size, blockSize⟩ := by
  rw [addBlockBuffer] at h
  split_ifs at h with h₁ h₂ h₃ h₄
  injection h with h
  subst h
  exact ⟨by simpa using h₄, Function.update_self ..⟩

theorem BufferRegistry.bufferFor_of_extra {e : ExtraBuffer} (h : reg.extra bufferId = some e) :
    reg.bufferFor bufferId ≠ .error .unknownBuffer := by
  rw [bufferFor]
  split_ifs
  · nofun
  · rw [h]
    nofun

theorem inTables_memoryFor (l : Nat) :
    (inTables fun info => memoryFor info l).run s =
      match registryFor s.info l with
      | .ok reg => .ok reg s
      | .error e => .error e s := by
  unfold inTables memoryFor EStateM.run
  dsimp only
  cases registryFor s.info l <;> rfl

/-- A buffer that the broker link's memory takes. -/
theorem addBlockBuffer_run (h : s.Takes bufferId blockSize bufferIndex fds linkIdBroker reg) :
    (dispatch depth (.addBlockBuffer bufferId blockSize bufferIndex) fds linkId).run s =
      (resolveParcels depth (s.pendingFragments (linkId, bufferId))).run
        (s.buffered bufferId linkIdBroker linkId reg) := by
  obtain ⟨fd, old, hfd, hold, hadd⟩ := h
  have hmem : (inTables fun info => memoryFor info linkIdBroker).run s = .ok old s := by
    rw [inTables_memoryFor, hold]
  show (onAddBlockBuffer depth bufferId blockSize bufferIndex fds linkId).run s = _
  unfold onAddBlockBuffer
  rw [hfd]
  simp only
  rw [run_bind_of_ok hmem, hadd]
  rfl

/-- A buffer that the broker link's memory does not take changes nothing. -/
theorem addBlockBuffer_refused
    (h : ∀ reg, ¬s.Takes bufferId blockSize bufferIndex fds linkIdBroker reg) :
    bufferStep depth s (.addBlockBuffer bufferId blockSize bufferIndex fds linkId) = s := by
  show endState ((onAddBlockBuffer depth bufferId blockSize bufferIndex fds linkId).run s) = s
  unfold onAddBlockBuffer
  cases hfd : fds[bufferIndex]? with
  | none => rfl
  | some fd =>
      simp only
      rw [EStateM.run_bind, inTables_memoryFor]
      cases hold : registryFor s.info linkIdBroker with
      | error e => rfl
      | ok old =>
          cases hadd : old.addBlockBuffer bufferId fd.size blockSize with
          | error e =>
              simp only [hadd]
              rfl
          | ok reg => exact absurd ⟨fd, old, hfd, hold, hadd⟩ (h reg)

/-- Nothing waits on `linkId` for the buffer any more; the rest waits as
before. -/
theorem RoutingAcceptor.OwnLink.buffered (ho : s.OwnLink) (memoryLink l : Nat) :
    (s.buffered bufferId memoryLink l reg).OwnLink := by
  intro key entry hentry
  by_cases hkey : key = (l, bufferId)
  · subst hkey
    simp [RoutingAcceptor.buffered] at hentry
  · have hentry : entry ∈ s.pendingFragments key := by
      simpa [RoutingAcceptor.buffered, setRegistry, Function.update_of_ne hkey] using hentry
    exact ho key entry hentry

theorem addBlockBuffer_keeps (ho : s.OwnLink)
    (h : s.Takes bufferId blockSize bufferIndex fds linkIdBroker reg) :
    DefersOn linkId (s.buffered bufferId linkIdBroker linkId reg)
      (bufferStep depth s (.addBlockBuffer bufferId blockSize bufferIndex fds linkId)) := by
  show DefersOn linkId _ (endState ((dispatch depth (.addBlockBuffer bufferId blockSize bufferIndex)
    fds linkId).run s))
  rw [addBlockBuffer_run h]
  exact resolveParcels_keeps depth (ho (linkId, bufferId)) _

/-- Deferred parcels are replayed on the link that they came from. -/
theorem resolveParcels_ownLink {queued : List (ParcelMessage × List OwnedFd × Nat)}
    (h : ∀ entry ∈ queued, entry.2.2 = linkId) :
    resolveParcels depth queued = queued.forM (processDeferred depth linkId) := by
  unfold resolveParcels
  induction queued with
  | nil => rfl
  | cons entry queued ih =>
      obtain ⟨p, fds, l⟩ := entry
      obtain rfl : l = linkId := h _ List.mem_cons_self
      show (do (do let _ ← processAcceptParcel depth p fds l); _) = _
      rw [ih fun e he => h e (List.mem_cons_of_mem _ he)]
      rfl

theorem RoutingAcceptor.Takes.old (h : s.Takes bufferId blockSize bufferIndex fds linkId reg) :
    ∃ l old, s.info.links linkId = some l ∧ l.memory = some old ∧
      old.extra bufferId = none ∧ reg.extra bufferId ≠ none := by
  obtain ⟨fd, old, -, hold, hadd⟩ := h
  obtain ⟨hnone, hsome⟩ := BufferRegistry.addBlockBuffer_extra hadd
  rw [registryFor] at hold
  split at hold
  · cases hold
  · rename_i l hl
    split at hold
    · cases hold
    · rename_i m hm
      injection hold with hold
      subst hold
      exact ⟨l, m, hl, hm, hnone, by simp [hsome]⟩

end AddBlockBuffer

/-! ### Buffers and the links that they belong to -/

section Steps

variable {depth : Nat} {s : RoutingAcceptor} {reg : BufferRegistry}

/-- On the broker link the deferred parcels are processed if none stops the
loop before its end. -/
theorem processed_broker_iff {bufferId : UInt64} {blockSize bufferIndex : Nat}
    {fds : List OwnedFd} (ho : s.OwnLink)
    (h : s.Takes bufferId blockSize bufferIndex fds linkIdBroker reg) :
    RunsThrough (processDeferred depth linkIdBroker) (s.pendingFragments (linkIdBroker, bufferId))
        (s.buffered bufferId linkIdBroker linkIdBroker reg)
        ((dispatch depth (.addBlockBuffer bufferId blockSize bufferIndex) fds linkIdBroker).run s) ↔
      s.NoneRefused depth linkIdBroker bufferId reg := by
  rw [addBlockBuffer_run h, resolveParcels_ownLink (ho (linkIdBroker, bufferId))]
  exact runsThrough_forM_iff

/-- On the broker link the law holds if the deferred parcels are processed. -/
theorem bufferLaw_broker_iff {bufferId : UInt64} {blockSize bufferIndex : Nat}
    {fds : List OwnedFd} (ho : s.OwnLink)
    (h : s.Takes bufferId blockSize bufferIndex fds linkIdBroker reg) :
    s.BufferLaw bufferId blockSize bufferIndex fds depth linkIdBroker reg ↔
      s.NoneRefused depth linkIdBroker bufferId reg := by
  refine ⟨fun hlaw => (processed_broker_iff ho h).mp hlaw.processed, fun hnone => ?_⟩
  have hkeeps : DefersOn linkIdBroker (s.buffered bufferId linkIdBroker linkIdBroker reg)
      (bufferStep depth s (.addBlockBuffer bufferId blockSize bufferIndex fds linkIdBroker)) :=
    addBlockBuffer_keeps ho h
  obtain ⟨l, old, hl, hold, -, hsome⟩ := h.old
  have hlink : (s.buffered bufferId linkIdBroker linkIdBroker reg).info.links linkIdBroker =
      (s.info.links linkIdBroker).map fun l => { l with memory := some reg } := by
    simp [RoutingAcceptor.buffered, setRegistry]
  obtain ⟨e, he⟩ := Option.ne_none_iff_exists'.mp hsome
  have hres : (s.buffered bufferId linkIdBroker linkIdBroker reg).Resolves linkIdBroker bufferId :=
    ⟨{ l with memory := some reg }, reg, by rw [hlink, hl]; rfl, rfl, reg.bufferFor_of_extra he⟩
  refine ⟨?registered, ?resolves, ?nowhereElse, ?processed, ?noneLeft, ?othersDeferred⟩
  case registered => rw [hkeeps.info, hlink]
  case resolves => rwa [Resolves, hkeeps.info]
  case nowhereElse =>
    intro l' hne
    rw [hkeeps.info]
    exact Function.update_of_ne hne _ _
  case processed => exact (processed_broker_iff ho h).mpr hnone
  case noneLeft =>
    rw [hkeeps.pending _ (.inr hres)]
    exact Function.update_self ..
  case othersDeferred =>
    intro key hne
    rw [hkeeps.pending _ (.inl hne)]
    apply Function.update_of_ne
    rintro rfl
    exact hne rfl

/-- On any other link the buffer is not registered where it belongs. -/
theorem not_bufferLaw {bufferId : UInt64} {blockSize bufferIndex : Nat} {fds : List OwnedFd}
    {linkId : Nat} (ho : s.OwnLink) (hne : linkId ≠ linkIdBroker)
    (h : s.Takes bufferId blockSize bufferIndex fds linkId reg) :
    ¬s.BufferLaw bufferId blockSize bufferIndex fds depth linkId reg := by
  intro hlaw
  obtain ⟨l, old, hl, hold, hnone, hsome⟩ := h.old
  have hsame : (bufferStep depth s (.addBlockBuffer bufferId blockSize bufferIndex fds linkId)
      ).info.links linkId = s.info.links linkId := by
    by_cases hbroker : ∃ reg', s.Takes bufferId blockSize bufferIndex fds linkIdBroker reg'
    · obtain ⟨reg', hbroker⟩ := hbroker
      rw [(addBlockBuffer_keeps ho hbroker).info]
      exact Function.update_of_ne hne _ _
    · rw [addBlockBuffer_refused (not_exists.mp hbroker)]
  have hregistered := hlaw.registered
  rw [hsame, hl] at hregistered
  injection hregistered with hregistered
  have hmem : l.memory = some reg := by rw [hregistered]
  rw [hold] at hmem
  injection hmem with hmem
  exact hsome (hmem ▸ hnone)

theorem bufferStep_ownLink (op : BufferOp) (ho : s.OwnLink) : (bufferStep depth s op).OwnLink := by
  cases op with
  | acceptParcel p fds linkId =>
      have hkeeps : Maintains (DefersOn linkId) (dispatch depth (.acceptParcel p) fds linkId) :=
        (processAcceptParcel_keeps (defersOn_framed _) depth p fds).bind fun _ => keeps_pure _
      exact (hkeeps s).ownLink ho
  | addBlockBuffer bufferId blockSize bufferIndex fds linkId =>
      by_cases hbroker : ∃ reg, s.Takes bufferId blockSize bufferIndex fds linkIdBroker reg
      · obtain ⟨reg, hbroker⟩ := hbroker
        exact (addBlockBuffer_keeps ho hbroker).ownLink (ho.buffered _ _)
      · rwa [addBlockBuffer_refused (not_exists.mp hbroker)]

theorem exec_ownLink (depth : Nat) {s : RoutingAcceptor} (ho : s.OwnLink) (ops : List BufferOp) :
    (exec (bufferStep depth) s ops).OwnLink := by
  induction ops generalizing s with
  | nil => exact ho
  | cons op ops ih => exact ih (bufferStep_ownLink op ho)

/-- A step obeys the law just where buffers come on the broker link and let the
parcels that wait for them through. -/
theorem belongsToLink_iff (op : BufferOp) (ho : s.OwnLink) :
    BelongsToLink depth s op ↔ OnBrokerLink depth s op := by
  cases op with
  | acceptParcel p fds linkId =>
      have hkeeps : Maintains (DefersOn linkId) (dispatch depth (.acceptParcel p) fds linkId) :=
        (processAcceptParcel_keeps (defersOn_framed _) depth p fds).bind fun _ => keeps_pure _
      exact iff_of_true (hkeeps s) trivial
  | addBlockBuffer bufferId blockSize bufferIndex fds linkId =>
      constructor
      · intro h reg htakes
        obtain rfl : linkId = linkIdBroker := by
          by_contra hne
          exact not_bufferLaw ho hne htakes (h reg htakes)
        exact ⟨rfl, (bufferLaw_broker_iff ho htakes).mp (h reg htakes)⟩
      · intro h reg htakes
        obtain ⟨rfl, hnone⟩ := h reg htakes
        exact (bufferLaw_broker_iff ho htakes).mpr hnone

end Steps

theorem fresh_ownLink (ids : List Nat) : (RoutingAcceptor.fresh ids).OwnLink :=
  fun _ _ h => absurd h List.not_mem_nil

/-- A node with two links, and a terminal router on sublink 0 of the broker link. -/
def waitingNode : RoutingAcceptor :=
  { RoutingAcceptor.fresh [0, 1] with
    tables := (RouteTables.fresh.setOwner (0, 0) 5).setRouter 5
      (.newTerminal (.remote 0 0 .peripheralOutward .b none)) }

/-- A parcel with its data in buffer 5. -/
def waitingParcel (sequenceNumber : Nat) : ParcelMessage :=
  ⟨0, sequenceNumber, 0, 1, ⟨5, 0, 64⟩, [], [], [], []⟩

/-- Parcels that wait for the buffer, and then the buffer. -/
def lateBuffer (linkId : Nat) (numbers : List Nat) : List BufferOp :=
  numbers.map (fun n => .acceptParcel (waitingParcel n) [] linkId) ++
    [.addBlockBuffer 5 64 0 [⟨0, 65536⟩] linkId]

end MojoRs.Ipcz
