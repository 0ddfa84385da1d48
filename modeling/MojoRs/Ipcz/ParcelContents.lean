/-
MojoRs/Ipcz/ParcelContents.lean

Parcels keep what they carry.  `Carries C` says that every parcel a node has,
in a queue of a router, delivered to a portal or sent on a link, is one of `C`.
On a link a portal is there as a descriptor that its router was serialized into
for this link, as the ghost `serialized` of the tables has it.

Queues hand on what they were given: what is pushed, popped, collected for
transmission or delivered is in `C` if the queue's parcels are.

Most changes of a flush leave the parcels of a router where they are (`Rewired`).

Main results: `Router.Holds.collectToFlush`, `Router.Holds.deliver`,
`Router.Rewired.holds`.
-/
import MojoRs.Ipcz.NodeFrames

namespace MojoRs.Ipcz

open Function (update)
open Lib

/-! ### Contents -/

/-- Parcels, with their sequence numbers, data, objects and fragments. -/
abbrev Contents := Parcel → Prop

variable {C : Contents}

/-- The parcel is one of `C`. -/
def Parcel.In (p : Parcel) (C : Contents) : Prop := C p

/-- A parcel on a link, with descriptors out of `log`: what is sent is a parcel
of `C` with its fragment or its data, and a descriptor for the router of each
portal, in the order of its objects. -/
def ParcelMessage.In (m : ParcelMessage) (C : Contents) (log : List (Nat × RouterDescriptor)) :
    Prop :=
  ∃ p : Parcel, ∃ serialized : List (Nat × RouterDescriptor), p.In C ∧
    p.objects = serialized.map (fun x => .router x.1) ∧ (∀ x ∈ serialized, x ∈ log) ∧
    m = encodeParcel m.sublink p (serialized.map fun _ => handleTypePortal) (serialized.map (·.2))

theorem ParcelMessage.In.mono {m : ParcelMessage} {log log' : List (Nat × RouterDescriptor)}
    (h : m.In C log) (hlog : ∀ d ∈ log, d ∈ log') : m.In C log' := by
  obtain ⟨p, serialized, hp, hobjects, hserialized, hm⟩ := h
  exact ⟨p, serialized, hp, hobjects, fun d hd => hlog d (hserialized d hd), hm⟩

/-- Every parcel of a router. -/
structure Router.Holds (r : Router) (C : Contents) : Prop where
  inbound : ∀ p ∈ r.inbound.buffer, p.In C
  outbound : ∀ p ∈ r.outbound.buffer, p.In C
  portal : ∀ portal, r.portal = some portal → ∀ m ∈ portal.messages,
    ∃ p, Parcel.In p C ∧ m = (p.data, p.objects)

/-- The descriptors for a link. -/
def RouteTables.serializedFor (s : RouteTables) (linkId : Nat) : List (Nat × RouterDescriptor) :=
  (s.serialized.filter (·.1 = linkId)).map (·.2)

/-- Every parcel of a node. -/
structure RouteTables.Carries (C : Contents) (s : RouteTables) : Prop where
  routers : ∀ rid r, s.routers rid = some r → r.Holds C
  sent : ∀ linkId, ∀ entry ∈ (s.channels linkId).sent, ∀ m,
    entry.2.1 = .acceptParcel m → m.In C (s.serializedFor linkId)

open RouteTables

/-! ### Queues -/

theorem ParcelMap.mem_insert {p q : Parcel} {m : ParcelMap} (h : q ∈ ParcelMap.insert p m) :
    q = p ∨ q ∈ m := by
  induction m with
  | nil => exact .inl (List.mem_singleton.mp h)
  | cons a m ih =>
      rw [ParcelMap.insert] at h
      split_ifs at h
      · rcases List.mem_cons.mp h with h | h
        · exact .inl h
        · exact .inr h
      · rcases List.mem_cons.mp h with h | h
        · exact .inl h
        · exact .inr (List.mem_cons_of_mem _ h)
      · rcases List.mem_cons.mp h with h | h
        · exact .inr (h ▸ List.mem_cons_self)
        · rcases ih h with h | h
          · exact .inl h
          · exact .inr (List.mem_cons_of_mem _ h)

namespace ParcelQueue

/-- Every parcel of a queue. -/
def Holds (q : ParcelQueue) (C : Contents) : Prop := ∀ p ∈ q.buffer, p.In C

variable {q q' : ParcelQueue} {p : Parcel}

theorem Holds.push (h : q.Holds C) (hp : p.In C) (hq : q.push p = some q') : q'.Holds C := by
  rw [ParcelQueue.push] at hq
  split_ifs at hq
  injection hq with hq
  subst hq
  intro x hx
  rcases ParcelMap.mem_insert hx with rfl | hx
  · exact hp
  · exact h x hx

theorem Holds.pop (h : q.Holds C) (hq : q.pop = some (p, q')) : p.In C ∧ q'.Holds C := by
  rw [ParcelQueue.pop] at hq
  split at hq
  · rename_i x hx
    injection hq with hq
    injection hq with hp hq
    subst hp hq
    refine ⟨h x (List.mem_of_find?_eq_some hx), fun y hy => ?_⟩
    exact h y (List.mem_filter.mp hy).1
  · cases hq

theorem Holds.collect (h : q.Holds C) (edge : Edge) :
    (∀ x ∈ (q.collect edge).1, x.2.In C) ∧ (q.collect edge).2.Holds C := by
  have hloop : ∀ fuel (q : ParcelQueue), q.Holds C →
      (∀ x ∈ (collectLoop edge fuel q).1, x.2.In C) ∧ (collectLoop edge fuel q).2.Holds C := by
    intro fuel
    induction fuel with
    | zero => exact fun q h => ⟨fun x hx => absurd hx List.not_mem_nil, h⟩
    | succ fuel ih =>
        intro q h
        rw [collectLoop]
        split
        · rename_i link p q' _ hpop
          obtain ⟨hp, hq'⟩ := h.pop hpop
          obtain ⟨hout, hrest⟩ := ih q' hq'
          refine ⟨fun x hx => ?_, hrest⟩
          rcases List.mem_cons.mp hx with rfl | hx
          · exact hp
          · exact hout x hx
        · exact ⟨fun x hx => absurd hx List.not_mem_nil, h⟩
  exact hloop _ q h

theorem Holds.drain (h : q.Holds C) : (∀ p ∈ q.drain.1, p.In C) ∧ q.drain.2.Holds C := by
  have hloop : ∀ fuel (q : ParcelQueue), q.Holds C →
      (∀ p ∈ (drainLoop fuel q).1, p.In C) ∧ (drainLoop fuel q).2.Holds C := by
    intro fuel
    induction fuel with
    | zero => exact fun q h => ⟨fun x hx => absurd hx List.not_mem_nil, h⟩
    | succ fuel ih =>
        intro q h
        rw [drainLoop]
        split
        · rename_i p q' hpop
          obtain ⟨hp, hq'⟩ := h.pop hpop
          obtain ⟨hout, hrest⟩ := ih q' hq'
          refine ⟨fun x hx => ?_, hrest⟩
          rcases List.mem_cons.mp hx with rfl | hx
          · exact hp
          · exact hout x hx
        · exact ⟨fun x hx => absurd hx List.not_mem_nil, h⟩
  exact hloop _ q h

theorem Holds.setFinalSequenceLength {n : Nat} (h : q.Holds C)
    (hq : q.setFinalSequenceLength n = some q') : q'.Holds C := by
  rw [ParcelQueue.setFinalSequenceLength] at hq
  split_ifs at hq
  injection hq with hq
  subst hq
  exact h

end ParcelQueue

namespace Router.Holds

variable {r r' : Router} {p : Parcel}

/-- Without a bound on contents there is nothing to check. -/
theorem any (r : Router) : r.Holds fun _ => True :=
  ⟨fun _ _ => trivial, fun _ _ => trivial, fun _ _ m _ => ⟨⟨0, m.1, m.2, none⟩, trivial, rfl⟩⟩

/-- A router with the same queues and the same portal. -/
theorem of_eq (h : r.Holds C) (hin : r'.inbound = r.inbound) (hout : r'.outbound = r.outbound)
    (hportal : r'.portal = r.portal) : r'.Holds C :=
  ⟨hin ▸ h.inbound, hout ▸ h.outbound, hportal ▸ h.portal⟩

theorem acceptInbound (h : r.Holds C) (hp : p.In C) (hr : r.acceptInbound p = some r') :
    r'.Holds C := by
  obtain ⟨q, hq, rfl⟩ := Option.map_eq_some_iff.mp hr
  exact ⟨ParcelQueue.Holds.push h.inbound hp hq, h.outbound, h.portal⟩

theorem acceptOutbound (h : r.Holds C) (hp : p.In C) (hr : r.acceptOutbound p = some r') :
    r'.Holds C := by
  obtain ⟨q, hq, rfl⟩ := Option.map_eq_some_iff.mp hr
  exact ⟨h.inbound, ParcelQueue.Holds.push h.outbound hp hq, h.portal⟩

theorem acceptLocal {kind : LinkKind} (h : r.Holds C) (hp : p.In C)
    (hr : r.acceptLocal kind p = some r') : r'.Holds C := by
  rw [Router.acceptLocal] at hr
  split_ifs at hr
  · exact h.acceptInbound hp hr
  · exact h.acceptOutbound hp hr

theorem acceptLocalClosure {kind : LinkKind} {n : Nat} (h : r.Holds C)
    (hr : r.acceptLocalClosure kind n = some r') : r'.Holds C := by
  cases kind <;> obtain ⟨q, hq, rfl⟩ := Option.map_eq_some_iff.mp hr
  · exact ⟨ParcelQueue.Holds.setFinalSequenceLength h.inbound hq, h.outbound, h.portal⟩
  · exact ⟨ParcelQueue.Holds.setFinalSequenceLength h.inbound hq, h.outbound, h.portal⟩
  · exact ⟨h.inbound, ParcelQueue.Holds.setFinalSequenceLength h.outbound hq, h.portal⟩
  · exact ⟨h.inbound, ParcelQueue.Holds.setFinalSequenceLength h.outbound hq, h.portal⟩

theorem collectOutbound (h : r.Holds C) :
    (∀ x ∈ r.collectOutbound.1, x.2.In C) ∧ r.collectOutbound.2.Holds C := by
  obtain ⟨hout, hrest⟩ := ParcelQueue.Holds.collect h.outbound r.outward
  exact ⟨hout, h.inbound, hrest, h.portal⟩

theorem collectInbound (h : r.Holds C) :
    (∀ x ∈ r.collectInbound.1, x.2.In C) ∧ r.collectInbound.2.Holds C := by
  unfold Router.collectInbound
  split
  · exact ⟨fun x hx => absurd hx List.not_mem_nil, h⟩
  · rename_i inward _
    obtain ⟨hin, hrest⟩ := ParcelQueue.Holds.collect h.inbound inward
    exact ⟨hin, hrest, h.outbound, h.portal⟩

theorem collectBridge (h : r.Holds C) :
    (∀ x ∈ r.collectBridge.1, x.2.In C) ∧ r.collectBridge.2.Holds C := by
  unfold Router.collectBridge
  split
  · exact ⟨fun x hx => absurd hx List.not_mem_nil, h⟩
  · rename_i bridge _
    obtain ⟨hin, hrest⟩ := ParcelQueue.Holds.collect h.inbound bridge
    exact ⟨hin, hrest, h.outbound, h.portal⟩

/-- What is collected for transmission was queued. -/
theorem collectToFlush (h : r.Holds C) :
    (∀ x ∈ r.collectToFlush.1, x.2.In C) ∧ (∀ x ∈ r.collectToFlush.2.1, x.2.In C) ∧
      r.collectToFlush.2.2.Holds C := by
  obtain ⟨hout, hr⟩ := h.collectOutbound
  unfold Router.collectToFlush
  dsimp only
  split_ifs
  · exact ⟨hout, hr.collectInbound.1, hr.collectInbound.2⟩
  · exact ⟨hout, hr.collectBridge.1, hr.collectBridge.2⟩
  · exact ⟨hout, fun x hx => absurd hx List.not_mem_nil, hr⟩

theorem deliver (h : r.Holds C) : r.deliver.Holds C := by
  unfold Router.deliver
  split
  · rename_i portal hportal
    obtain ⟨hout, hrest⟩ := ParcelQueue.Holds.drain h.inbound
    refine ⟨hrest, h.outbound, ?_⟩
    intro portal' hportal' m hm
    injection hportal' with hportal'
    subst hportal'
    rcases List.mem_append.mp hm with hm | hm
    · exact h.portal portal hportal m hm
    · obtain ⟨p, hp, rfl⟩ := List.mem_map.mp hm
      exact ⟨p, hout p hp, rfl⟩
  · exact h

end Router.Holds

/-! ### Changes that leave the parcels -/

/-- The links of the inward edge. -/
def Router.inwardLinks (r : Router) : List Link := r.inward.elim [] Edge.links

theorem Edge.links_releasePrimaryLink (e : Edge) : ∀ l ∈ e.releasePrimaryLink.links, l ∈ e.links :=
  fun _ hl => List.mem_append_right _ hl

theorem Edge.links_maybeFinishDecay (e : Edge) (sent received : Nat) :
    ∀ l ∈ (e.maybeFinishDecay sent received).2.links, l ∈ e.links := by
  intro l hl
  unfold Edge.maybeFinishDecay at hl
  split at hl
  · split_ifs at hl
    · exact hl
    · rcases List.mem_append.mp hl with hl | hl
      · exact List.mem_append_left _ hl
      · cases hl
  · exact hl

theorem Edge.links_setPrimaryLink (e : Edge) (link : Link) :
    ∀ l ∈ (e.setPrimaryLink link).links, l = link ∨ l ∈ e.links := by
  intro l hl
  unfold Edge.setPrimaryLink at hl
  split at hl
  · rcases List.mem_append.mp hl with hl | hl
    · exact .inr (List.mem_append_left _ hl)
    · exact .inl (List.mem_singleton.mp hl)
  · rcases List.mem_append.mp hl with hl | hl
    · exact .inl (List.mem_singleton.mp hl)
    · exact .inr (List.mem_append_right _ hl)

/-- A parcel goes over a link of the edge. -/
theorem Edge.linkFor_mem {e : Edge} {n : Nat} {l : Link} (h : e.linkFor n = some l) :
    l ∈ e.links := by
  unfold Edge.linkFor at h
  split_ifs at h
  · exact List.mem_append_right _ (Option.mem_toList.mpr h)
  · exact List.mem_append_left _ (Option.mem_toList.mpr h)

/-- The links of a router change; its parcels, its portal and its place on the route
do not.  The inward edge has no new links. -/
structure Router.Rewired (r r' : Router) : Prop where
  inbound : r'.inbound.buffer = r.inbound.buffer
  current : r'.inbound.current = r.inbound.current
  outbound : r'.outbound.buffer = r.outbound.buffer
  portal : r'.portal = r.portal
  inward : r'.inward.isSome = r.inward.isSome
  links : ∀ l ∈ r'.inwardLinks, l ∈ r.inwardLinks
  bridge : r'.bridge.isSome → r.bridge.isSome

namespace Router.Rewired

variable {r r' r'' : Router}

theorem holds (h : r.Rewired r') (hr : r.Holds C) : r'.Holds C :=
  ⟨h.inbound ▸ hr.inbound, h.outbound ▸ hr.outbound, h.portal ▸ hr.portal⟩

theorem trans (h : r.Rewired r') (h' : r'.Rewired r'') : r.Rewired r'' :=
  ⟨h'.inbound.trans h.inbound, h'.current.trans h.current, h'.outbound.trans h.outbound,
    h'.portal.trans h.portal, h'.inward.trans h.inward, fun l hl => h.links l (h'.links l hl),
    fun hb => h.bridge (h'.bridge hb)⟩

theorem outward (r : Router) (outward : Edge) : r.Rewired { r with outward } :=
  ⟨rfl, rfl, rfl, rfl, rfl, fun _ hl => hl, id⟩

/-- A proxy stays one. -/
theorem inwardEdge {edge inward : Edge} (h : r.inward = some edge)
    (hlinks : ∀ l ∈ inward.links, l ∈ edge.links) : r.Rewired { r with inward := some inward } := by
  refine ⟨rfl, rfl, rfl, rfl, by rw [h]; rfl, ?_, id⟩
  rw [Router.inwardLinks, Router.inwardLinks, h]
  exact hlinks

theorem bridgeEdge {edge : Edge} (h : r.bridge = some edge) (bridge : Edge) :
    r.Rewired { r with bridge := some bridge } :=
  ⟨rfl, rfl, rfl, rfl, rfl, fun _ hl => hl, fun _ => by rw [h]; rfl⟩

theorem acceptLocalClosure {kind : LinkKind} {n : Nat}
    (h : r.acceptLocalClosure kind n = some r') : r.Rewired r' := by
  cases kind <;> obtain ⟨q, hq, rfl⟩ := Option.map_eq_some_iff.mp h <;>
    rw [ParcelQueue.setFinalSequenceLength] at hq <;> split_ifs at hq <;>
    obtain rfl := Option.some.inj hq
  · exact ⟨rfl, rfl, rfl, rfl, rfl, fun _ hl => hl, id⟩
  · exact ⟨rfl, rfl, rfl, rfl, rfl, fun _ hl => hl, id⟩
  · exact ⟨rfl, rfl, rfl, rfl, rfl, fun _ hl => hl, id⟩
  · exact ⟨rfl, rfl, rfl, rfl, rfl, fun _ hl => hl, nofun⟩

theorem finishDecays (r : Router) : r.Rewired r.finishBridgeDecay.finishDecays.2.2 := by
  have hbridge : r.Rewired r.finishBridgeDecay := by
    unfold Router.finishBridgeDecay
    split
    · next b hb => exact ⟨rfl, rfl, rfl, rfl, rfl, fun _ hl => hl, fun _ => by rw [hb]; rfl⟩
    · exact ⟨rfl, rfl, rfl, rfl, rfl, fun _ hl => hl, id⟩
  refine hbridge.trans ?_
  unfold Router.finishDecays
  dsimp only
  split
  · next inward hinward =>
      exact trans (.inwardEdge hinward (inward.links_maybeFinishDecay _ _)) (.outward _ _)
  · exact .outward _ _

theorem closures (r : Router) (onCentral : Bool) : r.Rewired (r.closures onCentral).2.2.2 := by
  unfold Router.closures
  generalize (if onCentral && r.outbound.isSequenceFullyConsumed then _ else _ :
    Option (Link × Nat) × Bool × Edge) = start
  obtain ⟨tryLock, deadOutward, outward⟩ := start
  dsimp only
  split_ifs
  · split
    · next inward _ hinward =>
        exact trans (.inwardEdge hinward inward.links_releasePrimaryLink) (.outward _ _)
    · split
      · exact ⟨rfl, rfl, rfl, rfl, rfl, fun _ hl => hl, nofun⟩
      · exact .outward _ _
    · exact .outward _ _
  · exact .outward _ _

end Router.Rewired

end MojoRs.Ipcz
