/-
MojoRs/Ipcz/ParcelHistory.lean

What a flush does with the parcels that it pops for the inward edge.  The
ghost `history` of the tables notes, for each router, when parcels are popped
and when each of them was transmitted; flushes nest, and a transmission that
fails leaves the parcels behind that come after it.

A history is `Undisturbed` if no flush of the router fails with popped parcels
left, none pops parcels while an earlier one still transmits, and the router is
not removed with parcels in its queue.  Then the parcels were transmitted in the
order in which they were popped, each once, and those that went over a remote
link are in messages on it.

Main results: `Balanced.undisturbed`, `routerFlush_settles`, `routerFlush_transmits`.
-/
import MojoRs.Ipcz.FlushFrames

namespace MojoRs.Ipcz

open Function (update)
open Lib RouteTables

/-! ### Histories -/

/-- The parcels that came into the inbound queue. -/
def acceptedIn (h : List ParcelEvent) : List Parcel :=
  h.filterMap fun
    | .accepted p => some p
    | _ => none

/-- The links a router was serialized for, with what was in its portal. -/
def serializedIn (h : List ParcelEvent) :
    List (Nat × RouterDescriptor × List (List UInt8 × List Object)) :=
  h.filterMap fun
    | .serialized linkId d unread => some (linkId, d, unread)
    | _ => none

/-- The parcels that left the inbound queue to be passed on. -/
def poppedIn (h : List ParcelEvent) : List (Link × Parcel) :=
  h.flatMap fun
    | .popped parcels => parcels
    | _ => []

/-- The parcels that were passed on. -/
def transmittedIn (h : List ParcelEvent) : List (Link × Parcel) :=
  h.filterMap fun
    | .transmitted link p => some (link, p)
    | _ => none

@[simp] theorem acceptedIn_append (h h' : List ParcelEvent) :
    acceptedIn (h ++ h') = acceptedIn h ++ acceptedIn h' := List.filterMap_append ..

@[simp] theorem serializedIn_append (h h' : List ParcelEvent) :
    serializedIn (h ++ h') = serializedIn h ++ serializedIn h' := List.filterMap_append ..

@[simp] theorem poppedIn_append (h h' : List ParcelEvent) :
    poppedIn (h ++ h') = poppedIn h ++ poppedIn h' := List.flatMap_append

@[simp] theorem transmittedIn_append (h h' : List ParcelEvent) :
    transmittedIn (h ++ h') = transmittedIn h ++ transmittedIn h' := List.filterMap_append ..

theorem mem_serializedIn {h : List ParcelEvent} {linkId : Nat} {d : RouterDescriptor}
    {unread : List (List UInt8 × List Object)} :
    (linkId, d, unread) ∈ serializedIn h ↔ .serialized linkId d unread ∈ h := by
  unfold serializedIn
  rw [List.mem_filterMap]
  constructor
  · rintro ⟨e, he, hmatch⟩
    cases e <;> cases hmatch
    exact he
  · exact fun he => ⟨_, he, rfl⟩

theorem mem_transmittedIn {h : List ParcelEvent} {link : Link} {p : Parcel} :
    (link, p) ∈ transmittedIn h ↔ .transmitted link p ∈ h := by
  unfold transmittedIn
  rw [List.mem_filterMap]
  constructor
  · rintro ⟨e, he, hmatch⟩
    cases e <;> cases hmatch
    exact he
  · exact fun he => ⟨_, he, rfl⟩

/-- The parcels that a flush has still to transmit after an event; none after
a flush has failed, or was entered again with parcels to transmit, or the router
was removed with parcels in its queue. -/
def pending : Option (List (Link × Parcel)) → ParcelEvent → Option (List (Link × Parcel))
  | none, _ => none
  | some [], .popped parcels => some parcels
  | some (_ :: _), .popped _ => none
  | some rest, .transmitted _ _ => some rest.tail
  | some _, .abandoned => none
  | some _, .removed => none
  | some rest, .accepted _ => some rest
  | some rest, .serialized _ _ _ => some rest

/-- No flush failed, and none was entered again, with parcels to transmit, and the
router was not removed with parcels in its queue. -/
def Undisturbed (h : List ParcelEvent) : Prop := (h.foldl pending (some [])).isSome

instance : DecidablePred Undisturbed := fun _ => inferInstanceAs (Decidable (_ = true))

theorem foldl_pending_none (h : List ParcelEvent) : h.foldl pending none = none := by
  induction h with
  | nil => rfl
  | cons e h ih => exact ih

/-- What is undisturbed was so before. -/
theorem foldl_pending_append {h h' : List ParcelEvent} {start rest : List (Link × Parcel)}
    (hfold : (h ++ h').foldl pending (some start) = some rest) :
    ∃ mid, h.foldl pending (some start) = some mid ∧ h'.foldl pending (some mid) = some rest := by
  rw [List.foldl_append] at hfold
  cases hmid : h.foldl pending (some start) with
  | none =>
      rw [hmid, foldl_pending_none] at hfold
      cases hfold
  | some mid =>
      rw [hmid] at hfold
      exact ⟨mid, rfl, hfold⟩

theorem Undisturbed.not_removed {h : List ParcelEvent} (hu : Undisturbed h) : .removed ∉ h := by
  intro hmem
  obtain ⟨before, rest, rfl⟩ := List.append_of_mem hmem
  unfold Undisturbed at hu
  rw [List.foldl_append, List.foldl_cons] at hu
  have hnone (state : Option (List (Link × Parcel))) : pending state .removed = none := by
    rcases state with - | _ | _ <;> rfl
  rw [hnone, foldl_pending_none] at hu
  cases hu

/-- A history in which every flush came to its end: if nothing disturbs it, what
was popped was transmitted in this order, and nothing was popped where a flush
around it had parcels to transmit. -/
def Balanced (h : List ParcelEvent) : Prop :=
  ∀ start rest, h.foldl pending (some start) = some rest →
    rest = start ∧ transmittedIn h = poppedIn h ∧ (start ≠ [] → poppedIn h = [])

/-- A history in which the parcels of a flush are transmitted. -/
def Passes (parcels : List (Link × Parcel)) (h : List ParcelEvent) : Prop :=
  ∀ rest, h.foldl pending (some parcels) = some rest →
    rest = [] ∧ transmittedIn h = parcels ∧ poppedIn h = []

namespace Balanced

variable {h h' : List ParcelEvent}

theorem nil : Balanced [] := fun _ _ hfold => ⟨(Option.some.inj hfold).symm, rfl, fun _ => rfl⟩

theorem accepted (p : Parcel) : Balanced [.accepted p] := fun start _ hfold => by
  cases start <;> exact ⟨(Option.some.inj hfold).symm, rfl, fun _ => rfl⟩

theorem serialized (linkId : Nat) (d : RouterDescriptor) (unread : List (List UInt8 × List Object)) :
    Balanced [.serialized linkId d unread] := fun start _ hfold => by
  cases start <;> exact ⟨(Option.some.inj hfold).symm, rfl, fun _ => rfl⟩

/-- What was popped was transmitted. -/
theorem undisturbed (hh : Balanced h) (hu : Undisturbed h) : transmittedIn h = poppedIn h := by
  obtain ⟨rest, hrest⟩ := Option.isSome_iff_exists.mp hu
  exact (hh [] rest hrest).2.1

theorem append (hh : Balanced h) (hh' : Balanced h') : Balanced (h ++ h') := by
  intro start rest hfold
  obtain ⟨mid, hmid, hrest⟩ := foldl_pending_append hfold
  obtain ⟨rfl, htransmitted, hpopped⟩ := hh start mid hmid
  obtain ⟨rfl, htransmitted', hpopped'⟩ := hh' _ rest hrest
  refine ⟨rfl, ?_, fun hne => ?_⟩
  · rw [transmittedIn_append, poppedIn_append, htransmitted, htransmitted']
  · rw [poppedIn_append, hpopped hne, hpopped' hne]
    rfl

/-- After a failure there is nothing to show. -/
theorem removed : Balanced [.removed] := fun start _ hfold => by
  cases start <;> cases hfold

theorem abandoned (h : List ParcelEvent) : Balanced (h ++ [.abandoned]) := by
  intro start rest hfold
  obtain ⟨mid, -, hrest⟩ := foldl_pending_append hfold
  cases mid <;> cases hrest

/-- A flush pops parcels, and other flushes run before it transmits them. -/
theorem flush {parcels : List (Link × Parcel)} (hne : parcels ≠ []) (hh : Balanced h)
    (hh' : Passes parcels h') : Balanced (.popped parcels :: (h ++ h')) := by
  intro start rest hfold
  cases start with
  | cons x start =>
      rw [List.foldl_cons] at hfold
      exact absurd ((foldl_pending_none _).symm.trans hfold) nofun
  | nil =>
      rw [List.foldl_cons] at hfold
      obtain ⟨mid, hmid, hrest⟩ := foldl_pending_append hfold
      obtain ⟨rfl, htransmitted, hpopped⟩ := hh _ mid hmid
      obtain ⟨rfl, htransmitted', hpopped'⟩ := hh' rest hrest
      refine ⟨rfl, ?_, fun h => absurd rfl h⟩
      have hnone : transmittedIn h = [] := htransmitted.trans (hpopped hne)
      show transmittedIn (h ++ h') = _ ++ poppedIn (h ++ h')
      rw [transmittedIn_append, poppedIn_append, hnone, htransmitted', hpopped hne, hpopped']
      exact (List.append_nil _).symm

end Balanced

theorem Passes.nil : Passes [] [] := fun _ hfold => ⟨(Option.some.inj hfold).symm, rfl, rfl⟩

/-- The next parcel is transmitted, with all flushes that this sets off. -/
theorem Passes.cons {h h' : List ParcelEvent} {link : Link} {p : Parcel}
    {parcels : List (Link × Parcel)} (hh : Balanced h) (hh' : Passes parcels h') :
    Passes ((link, p) :: parcels) (h ++ .transmitted link p :: h') := by
  intro rest hfold
  obtain ⟨mid, hmid, hrest⟩ := foldl_pending_append hfold
  obtain ⟨rfl, htransmitted, hpopped⟩ := hh _ mid hmid
  obtain ⟨rfl, htransmitted', hpopped'⟩ := hh' rest hrest
  have hnone : poppedIn h = [] := hpopped nofun
  refine ⟨rfl, ?_, ?_⟩
  · rw [transmittedIn_append, htransmitted, hnone]
    show (link, p) :: transmittedIn h' = _
    rw [htransmitted']
  · rw [poppedIn_append, hnone]
    exact hpopped'

/-! ### What a run adds -/

/-- The message of a parcel is on its remote link, a descriptor in the place of
each portal. -/
def RouteTables.SentOn (s : RouteTables) (link : Link) (p : Parcel) : Prop :=
  ∃ number, ∃ serialized : List (Nat × RouterDescriptor),
    p.objects = serialized.map (fun x => .router x.1) ∧
      (number, RouteMessage.acceptParcel (encodeParcel link.sublink p
        (serialized.map fun _ => handleTypePortal) (serialized.map (·.2))), []) ∈
          (s.channels link.linkId).sent

/-- Messages that were sent stay sent. -/
def KeepsSent (s s' : RouteTables) : Prop :=
  ∀ l, ∀ entry ∈ (s.channels l).sent, entry ∈ (s'.channels l).sent

theorem RouteTables.SentOn.mono {s s' : RouteTables} {link : Link} {p : Parcel}
    (h : s.SentOn link p) (hsent : KeepsSent s s') : s'.SentOn link p := by
  obtain ⟨number, serialized, hobjects, hentry⟩ := h
  exact ⟨number, serialized, hobjects, hsent _ _ hentry⟩

/-- `h` is added to the history of a router, and what it says of transmitted
parcels is true. -/
structure Extends (rid : Nat) (h : List ParcelEvent) (s s' : RouteTables) : Prop where
  history : s'.history rid = s.history rid ++ h
  sent : KeepsSent s s'
  told : ∀ x ∈ transmittedIn h, x.1.localPeer = none → s'.SentOn x.1 x.2

/-- Every flush of the router that began between `s` and `s'` came to its end. -/
def Settles (rid : Nat) (s s' : RouteTables) : Prop := ∃ h, Extends rid h s s' ∧ Balanced h

section Extends

variable {rid rid' : Nat} {h h' : List ParcelEvent} {s s' s'' : RouteTables}

theorem Extends.trans (hh : Extends rid h s s') (hh' : Extends rid h' s' s'') :
    Extends rid (h ++ h') s s'' where
  history := by rw [hh'.history, hh.history, List.append_assoc]
  sent l entry hentry := hh'.sent l entry (hh.sent l entry hentry)
  told x hx hremote := by
    rw [transmittedIn_append] at hx
    rcases List.mem_append.mp hx with hx | hx
    · exact (hh.told x hx hremote).mono hh'.sent
    · exact hh'.told x hx hremote

/-- Nothing is added where the history and the channels stay. -/
theorem Extends.none (hhistory : s'.history rid = s.history rid) (hsent : KeepsSent s s') :
    Extends rid [] s s' :=
  ⟨hhistory.trans (List.append_nil _).symm, hsent, nofun⟩

theorem Extends.note (s : RouteTables) {e : ParcelEvent} (he : transmittedIn [e] = []) :
    Extends rid [e] s (s.note rid e) where
  history := Function.update_self ..
  sent _ _ hentry := hentry
  told x hx _ := by
    rw [he] at hx
    cases hx

theorem settles_none (hhistory : s'.history rid = s.history rid) (hsent : KeepsSent s s') :
    Settles rid s s' := ⟨[], .none hhistory hsent, .nil⟩

theorem settles_setRouter (s : RouteTables) (rid' : Nat) (r : Router) :
    Settles rid s (s.setRouter rid' r) := settles_none rfl fun _ _ hentry => hentry

theorem settles_dropRouter (s : RouteTables) (rid' : Nat) : Settles rid s (s.dropRouter rid') := by
  have hsent : KeepsSent s (s.dropRouter rid') := fun _ _ hentry => hentry
  by_cases hrid : rid = rid'
  · subst hrid
    have hhistory := dropRouter_history_self s rid
    split_ifs at hhistory
    · exact ⟨[.removed], ⟨hhistory, hsent, nofun⟩, .removed⟩
    · exact settles_none hhistory hsent
  · exact settles_none (dropRouter_history_ne s hrid) hsent

/-- An event that is no step of a flush. -/
theorem settles_note {e : ParcelEvent} (he : transmittedIn [e] = []) (hbalanced : Balanced [e])
    (s : RouteTables) (rid' : Nat) : Settles rid s (s.note rid' e) := by
  by_cases hrid : rid = rid'
  · subst hrid
    exact ⟨[e], .note s he, hbalanced⟩
  · exact settles_none (note_history_ne s e hrid) fun _ _ hentry => hentry

instance : Std.Refl (Settles rid) := ⟨fun _ => settles_none rfl fun _ _ hentry => hentry⟩

instance : IsTrans RouteTables (Settles rid) := ⟨by
  rintro s s' s'' ⟨h, hh, hbalanced⟩ ⟨h', hh', hbalanced'⟩
  exact ⟨h ++ h', hh.trans hh', hbalanced.append hbalanced'⟩⟩

end Extends

/-! ### Transmissions -/

section Transmit

variable {info : NodeInfo} {flush : Nat → Bool → RouteM Unit} {rid : Nat}

/-- A message on a channel stays there. -/
theorem sent_frame (l : Nat) (entry : Nat × RouteMessage × List OwnedFd) :
    FlushFrame (fun s => entry ∈ (s.channels l).sent) fun _ => True where
  holds _ _ := .any _
  quiet h hq := by
    rw [hq.channels]
    exact h
  setRouter _ _ h _ := h
  note _ _ h := h
  dropRouter _ h := h
  send := by
    intro s linkId msg fds h _
    by_cases hl : l = linkId
    · subst hl
      simp only [setChannel, Function.update_self, LinkChannel.send]
      split_ifs
      · exact h
      · exact List.mem_append_left _ h
    · simpa only [setChannel, Function.update_of_ne hl] using h
  log _ _ h := h

/-- Nothing is asked of the tables. -/
theorem any_frame : FlushFrame (fun _ => True) fun _ => True where
  holds _ _ := .any _
  quiet _ _ := trivial
  setRouter _ _ _ _ := trivial
  note _ _ _ := trivial
  dropRouter _ _ := trivial
  send _ _ _ _ _ := trivial
  log _ _ _ := trivial

theorem sendLinkMessageOn_sent {linkId : Nat} {msg : RouteMessage} {fds : List OwnedFd}
    {s s' : RouteTables} (h : (sendLinkMessageOn info linkId msg fds).run s = .ok ⟨⟩ s') :
    ∃ number, (number, msg, fds) ∈ (s'.channels linkId).sent := by
  unfold sendLinkMessageOn at h
  cases hlink : info.links linkId with
  | none =>
      rw [hlink] at h
      cases h
  | some l =>
      rw [hlink] at h
      dsimp only at h
      rw [run_get_bind, run_bind_of_ok (run_modify _ _)] at h
      split_ifs at h with hbroken
      · cases h
      · injection h with _ h
        refine ⟨(s.channels linkId).nextLinkSeq, ?_⟩
        rw [← h]
        simp only [setChannel, Function.update_self]
        exact List.mem_append_right _ (List.mem_singleton.mpr rfl)

/-- A parcel that was transmitted over a remote link is in a message on it. -/
theorem transmitParcel_sentOn (hflush : ∀ rid force, Maintains KeepsSent (flush rid force))
    (hnotes : ∀ rid' (e : ParcelEvent) rid force,
      Yields (fun s : RouteTables => e ∈ s.history rid') (flush rid force) fun _ => True)
    {link : Link} {p : Parcel} (hremote : link.localPeer = none) {s s' : RouteTables}
    (h : (transmitParcel info flush link p).run s = .ok ⟨⟩ s') : s'.SentOn link p := by
  unfold transmitParcel at h
  rw [hremote] at h
  obtain ⟨⟨handleTypes, serialized⟩, s₁, hserialize, h⟩ := bind_eq_ok.mp h
  obtain ⟨⟨⟩, s₂, hsend, hproxies⟩ := bind_eq_ok.mp h
  obtain ⟨hobjects, htypes⟩ :=
    (serializeObjects_frame (i := ()) any_frame.steps link.linkId p.objects s trivial).2 _ _ hserialize
  obtain ⟨number, hentry⟩ := sendLinkMessageOn_sent hsend
  refine ⟨number, serialized, hobjects.symm, ?_⟩
  rw [← htypes]
  have hnoted (x : Nat × RouterDescriptor) (hx : x ∈ serialized) :
      s₂.NotedFor link.linkId x.1 x.2 := by
    obtain ⟨unread, hmem⟩ := serializeObjects_noted hserialize x hx
    have hkept (msg : RouteMessage) : Yields (fun s : RouteTables =>
        .serialized link.linkId x.2 unread ∈ s.history x.1)
        (sendLinkMessageOn info link.linkId msg []) fun _ => True := yields_send _ _ _ fun _ h => h
    exact ⟨unread, (hkept _).ok hmem hsend⟩
  have hproxied : (serialized.forM fun x => beginProxying info flush x.1 x.2 link.linkId).run s₂ =
      .ok ⟨⟩ s' := hproxies
  have hend : _ ∈ ((endState ((serialized.forM fun x =>
      beginProxying info flush x.1 x.2 link.linkId).run s₂)).channels link.linkId).sent :=
    beginProxies_frame (i := ()) (sent_frame link.linkId _).steps
      (fun _ rid force s hs => ⟨hflush rid force s _ _ hs, fun _ _ _ => trivial⟩) hnotes
        link.linkId serialized hentry hnoted
  rw [hproxied] at hend
  exact hend

variable (hflush : ∀ rid force, Maintains KeepsSent (flush rid force))
  (hnotes : ∀ rid' (e : ParcelEvent) rid force,
    Yields (fun s : RouteTables => e ∈ s.history rid') (flush rid force) fun _ => True)
  (htransmit : ∀ link p, Maintains (Settles rid) (transmitParcel info flush link p))
include hflush hnotes htransmit

/-- The loop notes what it transmits; it transmits all parcels in their order if it
returns. -/
theorem transmitInbound_extends (parcels : List (Link × Parcel)) (s : RouteTables) :
    ∃ h, Extends rid h s (endState ((transmitInbound info flush rid parcels).run s)) ∧
      ∀ s', (transmitInbound info flush rid parcels).run s = .ok ⟨⟩ s' → Passes parcels h := by
  induction parcels generalizing s with
  | nil => exact ⟨[], .none rfl fun _ _ hentry => hentry, fun _ _ => .nil⟩
  | cons x parcels ih =>
      obtain ⟨link, p⟩ := x
      obtain ⟨h, hh, hbalanced⟩ := htransmit link p s
      have hloop : transmitInbound info flush rid ((link, p) :: parcels) =
          (transmitParcel info flush link p >>= fun _ =>
            modify (·.note rid (.transmitted link p))) >>= fun _ =>
              transmitInbound info flush rid parcels := rfl
      rw [hloop, bind_assoc, EStateM.run_bind]
      cases hparcel : (transmitParcel info flush link p).run s with
      | error e s₁ =>
          rw [hparcel] at hh
          exact ⟨h, hh, nofun⟩
      | ok a s₁ =>
          rw [hparcel] at hh
          have hnote : Extends rid [.transmitted link p] s₁
              (s₁.note rid (.transmitted link p)) := by
            refine ⟨Function.update_self .., fun _ _ hentry => hentry, fun x hx hremote => ?_⟩
            obtain rfl := List.mem_singleton.mp hx
            have hsent : s₁.SentOn link p := transmitParcel_sentOn hflush hnotes hremote hparcel
            exact hsent.mono fun _ _ hentry => hentry
          obtain ⟨h', hh', hpasses⟩ := ih (s₁.note rid (.transmitted link p))
          have hall := (hh.trans hnote).trans hh'
          rw [List.append_assoc] at hall
          exact ⟨_, hall, fun s' hs' => .cons hbalanced (hpasses s' hs')⟩

/-- The parcels that a flush pops are transmitted, unless something comes between. -/
theorem transmitPopped_settles (outbound inbound : List (Link × Parcel)) (hne : inbound ≠ [])
    (s : RouteTables) :
    ∃ h, Extends rid h s (endState ((transmitPopped info flush rid outbound inbound).run s)) ∧
      Balanced (.popped inbound :: h) := by
  have hout : Maintains (Settles rid)
      (outbound.forM fun x => transmitParcel info flush x.1 x.2) :=
    keeps_forM fun x _ => htransmit x.1 x.2
  obtain ⟨h, hh, hbalanced⟩ := hout s
  have habandoned (s : RouteTables) : Extends rid [.abandoned] s
      (if inbound.isEmpty then s else s.note rid .abandoned) := by
    rw [if_neg (by simpa using hne)]
    exact .note s rfl
  rw [transmitPopped_run]
  cases hrunOut : (outbound.forM fun x => transmitParcel info flush x.1 x.2).run s with
  | error e s₁ =>
      rw [hrunOut] at hh
      rw [EStateM.run_bind, hrunOut]
      exact ⟨_, hh.trans (habandoned s₁), .abandoned (.popped inbound :: h)⟩
  | ok a s₁ =>
      rw [hrunOut] at hh
      rw [run_bind_of_ok hrunOut]
      obtain ⟨h', hh', hpasses⟩ := transmitInbound_extends hflush hnotes htransmit inbound s₁
      cases hrunIn : (transmitInbound info flush rid inbound).run s₁ with
      | error e s₂ =>
          rw [hrunIn] at hh'
          exact ⟨_, (hh.trans hh').trans (habandoned s₂), .abandoned (.popped inbound :: (h ++ h'))⟩
      | ok a s₂ =>
          rw [hrunIn] at hh'
          exact ⟨_, hh.trans hh', .flush hne hbalanced (hpasses s₂ hrunIn)⟩

theorem flushParcels_settles (rid' : Nat) :
    Maintains (Settles rid) (flushParcels info flush rid') := by
  intro s
  unfold flushParcels
  rcases getRouter_cases rid' "flush for unknown router" s with ⟨err, hrun⟩ | ⟨r, -, hrun⟩
  · rw [EStateM.run_bind, hrun]
    exact Std.Refl.refl s
  rw [run_bind_of_ok hrun]
  obtain ⟨outbound, inbound, r'⟩ := r.collectToFlush
  show Settles rid s (endState ((putPopped rid' r' inbound >>= fun _ =>
    transmitPopped info flush rid' outbound inbound).run s))
  have hset : KeepsSent s (s.setRouter rid' r') := fun _ _ hentry => hentry
  have hout : Maintains (Settles rid)
      (outbound.forM fun x => transmitParcel info flush x.1 x.2) :=
    keeps_forM fun x _ => htransmit x.1 x.2
  by_cases hne : inbound = []
  · subst hne
    have hput : (putPopped rid' r' []).run s = .ok ⟨⟩ (s.setRouter rid' r') := rfl
    rw [transmitPopped_nil, run_bind_of_ok hput]
    exact IsTrans.trans _ _ _ (settles_setRouter s rid' r') (hout (s.setRouter rid' r'))
  have hput : (putPopped rid' r' inbound).run s =
      .ok ⟨⟩ ((s.setRouter rid' r').note rid' (.popped inbound)) := by
    unfold putPopped
    rw [run_modify, if_neg (by simpa using hne)]
  rw [run_bind_of_ok hput]
  by_cases hrid : rid = rid'
  · subst hrid
    obtain ⟨h, hh, hbalanced⟩ := transmitPopped_settles hflush hnotes htransmit outbound inbound hne
      ((s.setRouter rid r').note rid (.popped inbound))
    have hpopped : Extends rid [.popped inbound] s
        ((s.setRouter rid r').note rid (.popped inbound)) :=
      (Extends.none rfl hset : Extends rid [] s (s.setRouter rid r')).trans (.note _ rfl)
    exact ⟨_, hpopped.trans hh, hbalanced⟩
  · -- nothing is noted for the router in question
    have hnote (s₁ : RouteTables) (e : ParcelEvent) (hs : Settles rid s s₁) :
        Settles rid s (s₁.note rid' e) :=
      IsTrans.trans _ _ _ hs (settles_none (note_history_ne s₁ e hrid) fun _ _ hentry => hentry)
    have hparcel (x : Link × Parcel) :
        Yields (Settles rid s) (transmitParcel info flush x.1 x.2) fun _ => True :=
      (htransmit x.1 x.2).yields fun _ _ h hs => IsTrans.trans _ _ _ hs h
    exact (yields_transmitPopped (fun s₁ _ _ hs => hnote s₁ _ hs) (fun s₁ hs => hnote s₁ _ hs)
      (fun x _ => hparcel x) (fun x _ => hparcel x) ((s.setRouter rid' r').note rid' _)
      (hnote _ _ (settles_setRouter s rid' r'))).1

end Transmit

/-! ### Flushes -/

/-- Whatever a flush sets off, each flush of a router in it comes to its end, or
fails. -/
theorem settles_steps :
    FlushSteps (fun s s' : RouteTables => ∀ rid, Settles rid s s') fun _ => True where
  holds _ _ := .any _
  quiet h hq rid :=
    IsTrans.trans _ _ _ (h rid) (settles_none (by rw [hq.history]) fun l entry hentry => by
      rw [hq.channels]
      exact hentry)
  rewire h _ _ rid := IsTrans.trans _ _ _ (h rid) (settles_setRouter _ _ _)
  acceptInbound h _ _ _ rid :=
    IsTrans.trans _ _ _ (IsTrans.trans _ _ _ (h rid) (settles_setRouter _ _ _))
      (settles_note rfl (.accepted _) _ _)
  acceptOutbound h _ _ _ rid := IsTrans.trans _ _ _ (h rid) (settles_setRouter _ _ _)
  deliver h _ _ rid := IsTrans.trans _ _ _ (h rid) (settles_setRouter _ _ _)
  becomeProxy _ _ _ _ h _ _ _ _ rid :=
    IsTrans.trans _ _ _ (IsTrans.trans _ _ _ (h rid) (settles_setRouter _ _ _))
      (settles_note rfl (.serialized _ _ _) _ _)
  proxyLink h _ _ _ _ rid := IsTrans.trans _ _ _ (h rid) (settles_setRouter _ _ _)
  -- the only change that pops, here the history gets a whole flush
  parcels := by
    intro s info flush rid' hflush htransmit
    have hsettles (rid₁ : Nat) (force : Bool) (rid : Nat) :
        Maintains (Settles rid) (flush rid₁ force) :=
      fun s => (hflush s rid₁ force s fun _ => Std.Refl.refl s).1 rid
    have hsent (rid₁ : Nat) (force : Bool) : Maintains KeepsSent (flush rid₁ force) := by
      intro s
      obtain ⟨h, hh, -⟩ := hsettles rid₁ force rid₁ s
      exact hh.sent
    have hnotes (rid : Nat) (e : ParcelEvent) (rid₁ : Nat) (force : Bool) :
        Yields (fun s : RouteTables => e ∈ s.history rid) (flush rid₁ force) fun _ => True := by
      refine (hsettles rid₁ force rid).yields fun s s' h hmem => ?_
      obtain ⟨more, hmore, -⟩ := h
      rw [hmore.history]
      exact List.mem_append_left _ hmem
    have hparcel (rid : Nat) (link : Link) (p : Parcel) :
        Maintains (Settles rid) (transmitParcel info flush link p) :=
      fun s => (htransmit s link p trivial s fun _ => Std.Refl.refl s).1 rid
    intro s₁ hs
    refine ⟨fun rid => ?_, fun _ _ _ => trivial⟩
    exact IsTrans.trans _ _ _ (hs rid) (flushParcels_settles hsent hnotes (hparcel rid) rid' s₁)
  dropRouter rid' h rid := IsTrans.trans _ _ _ (h rid) (settles_dropRouter _ rid')
  -- what was sent before is still sent, on every link
  send := by
    intro s₀ s linkId msg fds h _ rid
    refine IsTrans.trans _ _ _ (h rid) (settles_none rfl fun l entry hentry => ?_)
    by_cases hl : l = linkId
    · subst hl
      simp only [setChannel, Function.update_self, LinkChannel.send]
      split_ifs
      · exact hentry
      · exact List.mem_append_left _ hentry
    · simpa only [setChannel, Function.update_of_ne hl] using hentry
  log _ _ h rid := IsTrans.trans _ _ _ (h rid) (settles_none rfl fun _ _ hentry => hentry)

theorem routerFlush_settles (info : NodeInfo) (depth rid rid' : Nat) (force : Bool) :
    Maintains (Settles rid) (routerFlush info depth rid' force) :=
  fun s => (routerFlush_frame settles_steps depth force s fun _ => Std.Refl.refl s).1 rid

section Returns

variable {info : NodeInfo} {flush : Nat → Bool → RouteM Unit} {rid : Nat} {s s' : RouteTables}
  (hnotes : ∀ rid' (e : ParcelEvent) rid force,
    Yields (fun s : RouteTables => e ∈ s.history rid') (flush rid force) fun _ => True)
include hnotes

theorem transmitInbound_notes {parcels : List (Link × Parcel)}
    (h : (transmitInbound info flush rid parcels).run s = .ok ⟨⟩ s') :
    ∀ x ∈ parcels, .transmitted x.1 x.2 ∈ s'.history rid := by
  induction parcels generalizing s with
  | nil => exact nofun
  | cons x parcels ih =>
      have hloop : transmitInbound info flush rid (x :: parcels) =
          (transmitParcel info flush x.1 x.2 >>= fun _ =>
            modify (·.note rid (.transmitted x.1 x.2))) >>= fun _ =>
              transmitInbound info flush rid parcels := rfl
      rw [hloop, bind_assoc] at h
      obtain ⟨⟨⟩, s₁, -, h⟩ := bind_eq_ok.mp h
      rw [run_bind_of_ok (run_modify _ _)] at h
      have hnoted : .transmitted x.1 x.2 ∈ (s₁.note rid (.transmitted x.1 x.2)).history rid := by
        rw [note_history_self]
        exact List.mem_append_right _ List.mem_cons_self
      have hkept (e : ParcelEvent) : Yields (fun s : RouteTables => e ∈ s.history rid)
          (transmitInbound info flush rid parcels) fun _ => True := by
        refine yields_forM fun y _ => ?_
        refine (transmitParcel_frame (i := ()) (noted_frame rid e).steps (fun _ => hnotes rid e)
          hnotes y.1 trivial).bind fun _ _ => ?_
        exact yields_modify fun s hs => mem_history_note rid _ hs
      exact List.forall_mem_cons.mpr ⟨(hkept _).ok hnoted h, ih h⟩

/-- A flush that returns has transmitted all parcels that it popped. -/
theorem routerFlushWith_transmits {force : Bool} {r : Router} (hr : s.routers rid = some r)
    (h : (routerFlushWith info flush rid force).run s = .ok ⟨⟩ s') :
    ∀ x ∈ r.collectToFlush.2.1, .transmitted x.1 x.2 ∈ s'.history rid := by
  unfold routerFlushWith flushStart at h
  rw [bind_assoc, run_bind_of_ok (getRouter_some _ hr)] at h
  obtain ⟨start, s₁, hstart, h⟩ := bind_eq_ok.mp h
  obtain ⟨rfl, rfl⟩ := pure_eq_ok.mp hstart
  obtain ⟨⟨⟩, s₂, hparcels, hrest⟩ := bind_eq_ok.mp h
  unfold flushParcels at hparcels
  rw [run_bind_of_ok (getRouter_some _ hr)] at hparcels
  generalize r.collectToFlush = collected at hparcels ⊢
  obtain ⟨outbound, inbound, r'⟩ := collected
  obtain ⟨⟨⟩, s₃, -, hpopped⟩ := bind_eq_ok.mp hparcels
  have hall : ((outbound.forM fun x => transmitParcel info flush x.1 x.2) >>= fun _ =>
      transmitInbound info flush rid inbound).run s₃ = .ok ⟨⟩ s₂ := by
    rw [transmitPopped_run] at hpopped
    split at hpopped
    · next hrun => exact hrun.trans hpopped
    · cases hpopped
  obtain ⟨⟨⟩, s₄, -, hinbound⟩ := bind_eq_ok.mp hall
  intro x hx
  have hnoted := transmitInbound_notes hnotes hinbound x hx
  exact (flushRest_frame (i := ()) (noted_frame rid _).steps (fun _ => hnotes rid _) force _).ok
    hnoted hrest

end Returns

theorem routerFlush_transmits {info : NodeInfo} {depth rid : Nat} {force : Bool}
    {s s' : RouteTables} {r : Router} (hr : s.routers rid = some r)
    (h : (routerFlush info depth rid force).run s = .ok ⟨⟩ s') :
    ∀ x ∈ r.collectToFlush.2.1, .transmitted x.1 x.2 ∈ s'.history rid := by
  cases depth with
  | zero => cases h
  | succ depth => exact routerFlushWith_transmits (routerFlush_notes depth) hr h

end MojoRs.Ipcz
