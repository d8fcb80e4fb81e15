import Feca.Social.System
import Mathlib.Data.Fintype.Basic

/-! # Membership transitions at write time

Decisions and cancellations repeat the status they expect in their `where`
clause. Invitations, joins and departures do not: they write by id what an
earlier read allowed. Their writes are legal as long as nobody moves a
membership out from under a call that has read it.
-/

namespace Feca.Social

open Concurrency Concurrency.Prog Relational

variable {ι : Type} [DecidableEq ι] {calls : ι → SocialCall} {c : SocialConfig ι}

/-- The call may still write the membership. -/
def MayWrite (p : SocialProg Unit) (id : Id) : Prop :=
  p.MayEmit fun e => ∃ x x', e = .wrote x x' ∧ x.id = id

/-- The step tells the truth about the memberships it changes, and moves each
of them from the status stored at that moment along an edge of the call that
moves; it creates rows only for users without one. -/
structure LegalStep (calls : ι → SocialCall) (c : SocialConfig ι) (i : ι) : Prop where
  reported : ∀ m ∈ c.store.members.rows, ∃ m' ∈ (c.advance i).store.members.rows,
    m'.id = m.id ∧ (m' = m ∨ .wrote m m' ∈ c.upcoming i)
  moves : ∀ m m', .wrote m m' ∈ c.upcoming i → m ∈ c.store.members.rows ∧
    m' ∈ (c.advance i).store.members.rows ∧ m'.id = m.id ∧
      ∃ g ∈ c.store.groups.rows, g.id = m.groupId ∧
        (calls i).rules.moves g.joinPolicy m.status m'.status = true
  starts : ∀ m, .created m ∈ c.upcoming i →
    (∀ x ∈ c.store.members.rows, ¬ (x.groupId = m.groupId ∧ x.userId = m.userId)) ∧
      ∃ g ∈ (c.advance i).store.groups.rows, g.id = m.groupId ∧
        (calls i).rules.starts g.joinPolicy m.status = true

/-- Whenever the call moves a membership, every other call that has read that
membership and may still write it would also write over the status it moves to. -/
def Undisturbed (calls : ι → SocialCall) (c : SocialConfig ι) (i : ι) : Prop :=
  ∀ m m', .wrote m m' ∈ c.upcoming i → ∀ j, j ≠ i → ∀ r, Seen (c.reported j) r → r.id = m.id →
    MayWrite (c.calls j) m.id → ∀ g ∈ c.store.groups.rows, g.id = m.groupId →
      ∀ status, (calls j).rules.moves g.joinPolicy r.status status = true →
        (calls j).rules.moves g.joinPolicy m'.status status = true

/-- A call that has read a membership, and may still write it, may do so as it
is stored now. -/
structure Current (calls : ι → SocialCall) (c : SocialConfig ι) : Prop where
  known : Known calls c
  moves : ∀ j r, Seen (c.reported j) r → Unwritten (c.reported j) r.id →
    MayWrite (c.calls j) r.id → ∃ m ∈ c.store.members.rows, m.id = r.id ∧ m.groupId = r.groupId ∧
      ∀ g ∈ c.store.groups.rows, g.id = r.groupId → ∀ status,
        (calls j).rules.moves g.joinPolicy r.status status = true →
          (calls j).rules.moves g.joinPolicy m.status status = true

theorem current_begin (s : SocialDb) (calls : ι → SocialCall) :
    Current calls (begin s calls) := by
  refine ⟨known_begin s calls, fun j r hr => ?_⟩
  obtain ⟨rows, hrows, -⟩ := hr
  simp [begin, Config.reported] at hrows

omit [DecidableEq ι] in
/-- A membership's group was there before the step. -/
theorem group_before {s t : SocialDb} (hgroups : ∀ g ∈ s.groups.rows, g ∈ t.groups.rows)
    {m : GroupMember} (hm : m ∈ s.members.rows) {g : Group} (hg : g ∈ t.groups.rows)
    (hid : g.id = m.groupId) : g ∈ s.groups.rows := by
  obtain ⟨g', hg', hid'⟩ := s.member_group m hm
  rwa [t.group_unique hg (hgroups g' hg') (hid.trans hid'.symm)]

omit [DecidableEq ι] in
/-- What a call has found of a group is its stored policy. -/
theorem consistent_of_found {past : List SocialEvent} {s : SocialDb}
    (hfound : ∀ g, .found g ∈ past → g ∈ s.groups.rows) {g : Group} (hg : g ∈ s.groups.rows) :
    Consistent past g.id g.joinPolicy := by
  intro x hx hid
  rw [s.group_unique (hfound x hx) hg hid]

theorem current_advance (h : Current calls c) {i : ι} (hsafe : Undisturbed calls c i) :
    Current calls (c.advance i) := by
  obtain ⟨law, hknown⟩ := law_advance h.known i
  refine ⟨hknown, fun j r hr hunwritten hmay => ?_⟩
  rcases seen_advance hr with hold | ⟨rfl, rows, hrows, hmem⟩
  · -- Read before: the row is as it was, or another call has moved it with care.
    have hbefore : Unwritten (c.reported j) r.id := by
      intro x x' hx
      refine hunwritten x x' ?_
      rw [c.reported_advance i j]
      exact List.mem_append_left _ hx
    have hmay' : MayWrite (c.calls j) r.id := Config.mayEmit_of_advance hmay
    obtain ⟨m, hm, hid, hgroup, hmoves⟩ := h.moves j r hold hbefore hmay'
    obtain ⟨m', hm', hid', hgroup', -, -, hsame⟩ := member_persists law hm
    refine ⟨m', hm', hid'.trans hid, hgroup'.trans hgroup, fun g hg hgid status hr => ?_⟩
    have hg' : g ∈ c.store.groups.rows :=
      group_before law.accounted.groups hm hg (hgid.trans hgroup.symm)
    rcases hsame with rfl | hwrote
    · exact hmoves g hg' hgid status hr
    · by_cases hj : j = i
      · subst hj
        refine absurd hid (hunwritten m m' ?_)
        rw [c.reported_advance_self]
        exact List.mem_append_right _ hwrote
      · exact hsafe m m' hwrote j hj r hold hid.symm (hid ▸ hmay') g hg'
          (hgid.trans hgroup.symm) status hr
  · -- Read now: a statement does not write what it reads.
    have hm := law.accounted.saw rows hrows r hmem
    obtain ⟨m', hm', hid', hgroup', -, -, rfl | hwrote⟩ := member_persists law hm
    · exact ⟨m', hm', rfl, rfl, fun _ _ _ _ => id⟩
    · refine absurd rfl (hunwritten r m' ?_)
      rw [c.reported_advance_self]
      exact List.mem_append_right _ hwrote

theorem legalStep_of_current (h : Current calls c) (i : ι) : LegalStep calls c i := by
  obtain ⟨law, hknown⟩ := law_advance h.known i
  refine ⟨law.accounted.kept, fun m m' hwrote => ?_, fun m hcreated => ?_⟩
  · obtain ⟨hm, hm', data, hset⟩ := law.accounted.wrote m m' hwrote
    obtain ⟨g, hg, hgid⟩ := c.store.member_group m hm
    refine ⟨hm, hm', by rw [hset, GroupMember.set_id], g, hg, hgid, ?_⟩
    obtain ⟨hunwritten, -, r, hr, hid, hgrounds⟩ := law.justified m m' hwrote
    have hconsistent := consistent_of_found (h.known.found i) hg
    rcases hr with rfl | hseen
    · exact hgrounds.legal g.joinPolicy (hgid ▸ hconsistent)
    · have hmay : MayWrite (c.calls i) r.id :=
        Config.mayEmit_of_upcoming hwrote ⟨m, m', rfl, hid.symm⟩
      obtain ⟨x, hx, hxid, hxgroup, hmoves⟩ := h.moves i r hseen (hid ▸ hunwritten) hmay
      obtain rfl := c.store.member_unique hx hm (hxid.trans hid)
      have hrgid : g.id = r.groupId := hgid.trans hxgroup
      exact hmoves g hg hrgid _ (hgrounds.legal g.joinPolicy (hrgid ▸ hconsistent))
  · obtain ⟨hm, hfree, -⟩ := law.accounted.created m hcreated
    obtain ⟨g, hg, hgid⟩ := (c.advance i).store.member_group m hm
    refine ⟨hfree, g, hg, hgid, law.starts m hcreated g.joinPolicy (hgid ▸ ?_)⟩
    exact consistent_of_found
      (fun x hx => law.accounted.groups x (h.known.found i x hx)) hg

/-- From any store, whatever calls run: as long as every write leaves the
memberships other calls are about to write where those calls may write them,
every write is legal at the moment it happens. -/
theorem legal_of_undisturbed (s : SocialDb) (calls : ι → SocialCall) (schedule : List ι)
    (h : Config.Heeds (Undisturbed calls) (begin s calls) schedule) :
    Config.Heeds (LegalStep calls) (begin s calls) schedule :=
  Config.heeds_of_heeds (I := Current calls)
    (fun _ i hc hsafe => ⟨legalStep_of_current hc i, current_advance hc hsafe⟩)
    (current_begin s calls) h

/-! ## Checking a schedule -/

def SocialEvent.isWrite : SocialEvent → Bool
  | .wrote _ _ => true
  | _ => false

def SocialEvent.isRead : SocialEvent → Bool
  | .saw _ => true
  | _ => false

/-- The call writes nothing now, or every other call is over or has not read. -/
def Apart (c : SocialConfig ι) (i : ι) : Prop :=
  (c.upcoming i).any SocialEvent.isWrite = false ∨
    ∀ j, j ≠ i → (c.calls j).ended = true ∨ (c.reported j).any SocialEvent.isRead = false

instance [Fintype ι] (c : SocialConfig ι) (i : ι) : Decidable (Apart c i) := by
  unfold Apart
  infer_instance

theorem Apart.undisturbed {i : ι} (h : Apart c i) : Undisturbed calls c i := by
  rintro m m' hwrote j hj r ⟨rows, hrows, -⟩ - hmay
  rcases h with hquiet | hothers
  · exact absurd rfl (List.any_eq_false.mp hquiet _ hwrote)
  · rcases hothers j hj with hended | hunread
    · exact absurd hmay (not_mayEmit_of_ended hended)
    · exact absurd rfl (List.any_eq_false.mp hunread _ hrows)

/-! ## A guest comes back -/

/-- Beto is invited to Ana's open plan, declines by leaving, is invited again,
and joins by himself. -/
def returningGuest : Fin 4 → SocialCall
  | 0 => .createPlan (anEnv "g1" ["m1", "m2"])
      { createdById := "ana", date := 10, inviteCode := "C0DE", name := "Cena", placeId := "p1",
        inviteUserIds := some ["beto"] }
  | 1 => .leavePlan "g1" "beto"
  | 2 => .addGroupMembers (anEnv "" ["s1", "s2"])
      { groupId := "g1", invitedById := "ana", memberIds := ["beto"] }
  | 3 => .joinPlan (anEnv "" ["m3"]) "g1" "beto"

/-- The moves a call would make now. -/
def upcomingMoves (c : SocialConfig ι) (i : ι) : List (GroupMemberStatus × GroupMemberStatus) :=
  (c.upcoming i).filterMap fun
    | .wrote m m' => some (m.status, m'.status)
    | _ => none

/-- He joins between the invitation's read and its write: the invitation turns
his accepted membership back to pending. -/
theorem invitation_undoes_join : ¬ Config.Heeds (LegalStep returningGuest)
    (begin threeUsers returningGuest) [0, 0, 1, 1, 2, 2, 2, 2, 2, 2, 3, 3, 3, 2] := by
  intro h
  have hsplit : Config.Heeds (LegalStep returningGuest) (begin threeUsers returningGuest)
      ([0, 0, 1, 1, 2, 2, 2, 2, 2, 2, 3, 3, 3] ++ [2]) := h
  have hlast := Config.heeds_append.mp hsplit
  have hmoves : (.accepted, .pending) ∈ upcomingMoves ((begin threeUsers returningGuest).run
      [0, 0, 1, 1, 2, 2, 2, 2, 2, 2, 3, 3, 3]) 2 := by decide
  obtain ⟨e, he, hmove⟩ := List.mem_filterMap.mp hmoves
  cases e with
  | wrote m m' =>
      obtain ⟨-, -, -, g, -, -, hedge⟩ := hlast.2.1.moves m m' he
      obtain ⟨hbefore, hafter⟩ : m.status = .accepted ∧ m'.status = .pending := by
        simpa using hmove
      rw [hbefore, hafter] at hedge
      cases hedge
  | found g => cases hmove
  | saw rows => cases hmove
  | created m => cases hmove
  | threw error => cases hmove
  | published input => cases hmove

/-- One call after the other, every move is legal. -/
theorem one_by_one_is_legal : Config.Heeds (LegalStep returningGuest)
    (begin threeUsers returningGuest) [0, 0, 1, 1, 2, 2, 2, 2, 2, 2, 2, 2, 3, 3, 3] := by
  have hapart : Config.Heeds Apart (begin threeUsers returningGuest)
      [0, 0, 1, 1, 2, 2, 2, 2, 2, 2, 2, 2, 3, 3, 3] := by decide
  exact legal_of_undisturbed _ _ _ (hapart.mono fun _ _ => Apart.undisturbed)

end Feca.Social
