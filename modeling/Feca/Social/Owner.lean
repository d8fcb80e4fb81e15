import Feca.Social.System

/-! # Every group has its owner

Nine operations write memberships, some of them long after they read the row.
None of them touches the row of a group's owner: it is accepted, and every
write over a row the call has seen accepted is a departure of somebody who is
no owner. So the row a group is created with stays its only owner row.
-/

namespace Feca.Social

open Concurrency Relational

/-- Each group has an accepted owner row of its creator, and owner rows belong
to creators only. -/
structure Owned (s : SocialDb) : Prop where
  owner : ∀ g ∈ s.groups.rows, ∃ m ∈ s.members.rows, m.groupId = g.id ∧
    m.userId = g.createdById ∧ m.role = .owner ∧ m.status = .accepted
  creator : ∀ m ∈ s.members.rows, m.role = .owner → ∀ g ∈ s.groups.rows, g.id = m.groupId →
    m.userId = g.createdById

/-- The owner rows of a group. -/
def SocialDb.owners (s : SocialDb) (groupId : Id) : List GroupMember :=
  s.members.rows.filter fun m => m.groupId == groupId && m.role == .owner

theorem owned_ofUsers (users : Table User) (settings : Table UserSettings)
    (follows : Table UserFollow) (cities : Table City) (places : Table Place) :
    Owned (.ofUsers users settings follows cities places) :=
  ⟨fun g hg => by simp [SocialDb.ofUsers] at hg, fun m hm => by simp [SocialDb.ofUsers] at hm⟩

/-- The owner row of a group is the only one. -/
theorem Owned.eq_owner {s : SocialDb} (h : Owned s) {g : Group} (hg : g ∈ s.groups.rows)
    {m n : GroupMember} (hm : m ∈ s.members.rows) (hn : n ∈ s.members.rows)
    (hmgroup : m.groupId = g.id) (hngroup : n.groupId = g.id) (hmrole : m.role = .owner)
    (hnrole : n.role = .owner) : m = n := by
  have hmuser := h.creator m hm hmrole g hg hmgroup.symm
  have hnuser := h.creator n hn hnrole g hg hngroup.symm
  exact s.membership_unique hm hn (hmgroup.trans hngroup.symm) (hmuser.trans hnuser.symm)

theorem Owned.accepted {s : SocialDb} (h : Owned s) {m : GroupMember} (hm : m ∈ s.members.rows)
    (hrole : m.role = .owner) : m.status = .accepted := by
  obtain ⟨g, hg, hgroup⟩ := s.member_group m hm
  obtain ⟨n, hn, hngroup, -, hnrole, hstatus⟩ := h.owner g hg
  rw [h.eq_owner hg hm hn hgroup.symm hngroup hrole hnrole]
  exact hstatus

/-- Exactly one owner row, the creator's, and accepted. -/
theorem Owned.owners_eq {s : SocialDb} (h : Owned s) {g : Group} (hg : g ∈ s.groups.rows) :
    ∃ m, s.owners g.id = [m] ∧ m.userId = g.createdById ∧ m.status = .accepted := by
  obtain ⟨m, hm, hgroup, huser, hrole, hstatus⟩ := h.owner g hg
  refine ⟨m, ?_, huser, hstatus⟩
  have hmem : m ∈ s.owners g.id :=
    List.mem_filter.mpr ⟨hm, by simp [hgroup, hrole]⟩
  have honly : ∀ n ∈ s.owners g.id, n = m := by
    intro n hn
    obtain ⟨hn, hcols⟩ := List.mem_filter.mp hn
    simp only [Bool.and_eq_true, beq_iff_eq] at hcols
    exact h.eq_owner hg hn hm hcols.1 hgroup hcols.2 hrole
  have hnodup : (s.owners g.id).Nodup := by
    refine List.Nodup.filter _ (s.members.distinct.imp fun {a b} hab heq => ?_)
    rw [heq, conflicts_self] at hab
    cases hab
  refine List.perm_singleton.mp ((List.perm_ext_iff_of_nodup hnodup (by simp)).mpr fun n => ?_)
  rw [List.mem_singleton]
  exact ⟨honly n, fun h => h ▸ hmem⟩

/-- A step that writes no owner row leaves the owners as they are. -/
theorem Owned.step {s t : SocialDb} {es : List SocialEvent} (h : Owned s)
    (law : Accounted s t es)
    (hwrote : ∀ m m', .wrote m m' ∈ es → m.role ≠ .owner ∧ m'.role ≠ .owner) : Owned t := by
  refine ⟨fun g hg => ?_, fun m hm hrole g hg hgroup => ?_⟩
  · rcases law.founded g hg with hold | hnew
    · obtain ⟨m, hm, hgroup, huser, hrole, hstatus⟩ := h.owner g hold
      obtain ⟨m', hm', -, rfl | hwritten⟩ := law.kept m hm
      · exact ⟨m', hm', hgroup, huser, hrole, hstatus⟩
      · exact absurd hrole (hwrote m m' hwritten).1
    · exact hnew
  · rcases law.origin m hm with hold | hcreated | ⟨x, hwritten⟩
    · obtain ⟨g', hg', hid⟩ := s.member_group m hold
      obtain rfl := t.group_unique hg (law.groups g' hg') (hgroup.trans hid.symm)
      exact h.creator m hold hrole g hg' hgroup
    · obtain ⟨-, -, hmember | ⟨-, -, g', hg', hid, hcreator⟩⟩ := law.created m hcreated
      · rw [hrole] at hmember
        cases hmember
      · rw [t.group_unique hg hg' (hgroup.trans hid.symm), hcreator]
    · exact absurd hrole (hwrote x m hwritten).2

variable {ι : Type} [DecidableEq ι] {calls : ι → SocialCall}

/-- The invariant: groups have their owners, and a call that has seen an owner
has seen them accepted. -/
structure OwnerInvariant (calls : ι → SocialCall) (c : SocialConfig ι) : Prop where
  known : Known calls c
  owned : Owned c.store
  seen : ∀ j r, Seen (c.reported j) r → r.role = .owner → r.status = .accepted

theorem ownerInvariant_advance {c : SocialConfig ι} (h : OwnerInvariant calls c) (i : ι) :
    OwnerInvariant calls (c.advance i) := by
  obtain ⟨law, hknown⟩ := law_advance h.known i
  refine ⟨hknown, h.owned.step law.accounted fun m m' hwrote => ?_, fun j r hr hrole => ?_⟩
  · obtain ⟨-, hrole', r, hr, hid, -, howner⟩ := law.justified m m' hwrote
    have hm : m ∈ c.store.members.rows := (law.accounted.wrote m m' hwrote).1
    have hnot : m.role ≠ .owner := by
      intro hrole
      rcases hr with rfl | hseen
      · exact howner hrole (h.owned.accepted hm hrole)
      · obtain ⟨x, hx, hxid, -, hxrole⟩ := h.known.seen i r hseen
        obtain rfl := c.store.member_unique hx hm (hxid.trans hid)
        exact howner (hxrole hrole) (h.seen i r hseen (hxrole hrole))
    refine ⟨hnot, ?_⟩
    rcases hrole' with hsame | hmember
    · rwa [hsame]
    · rw [hmember]
      exact GroupMemberRole.noConfusion
  · rcases seen_advance hr with hold | ⟨-, rows, hrows, hmem⟩
    · exact h.seen j r hold hrole
    · exact h.owned.accepted (law.accounted.saw rows hrows r hmem) hrole

/-- From a database without groups, whatever calls run and however their
statements interleave: every group has exactly one owner row, its creator's,
and it is accepted. -/
theorem every_group_keeps_its_owner (users : Table User) (settings : Table UserSettings)
    (follows : Table UserFollow) (cities : Table City) (places : Table Place)
    (calls : ι → SocialCall) (schedule : List ι) :
    let s := ((begin (.ofUsers users settings follows cities places) calls).run schedule).store
    ∀ g ∈ s.groups.rows, ∃ m, s.owners g.id = [m] ∧ m.userId = g.createdById ∧
      m.status = .accepted := by
  intro s g hg
  have hbegin : OwnerInvariant calls
      (begin (.ofUsers users settings follows cities places) calls) := by
    refine ⟨known_begin _ calls, owned_ofUsers _ _ _ _ _, fun j r hr => ?_⟩
    obtain ⟨rows, hrows, -⟩ := hr
    simp [begin, Config.reported] at hrows
  have hend := Config.invariant_run (I := OwnerInvariant calls)
    (fun c i hc => ownerInvariant_advance hc i) hbegin schedule
  exact hend.owned.owners_eq hg

/-- Ana's plan. -/
def anasPlan : CreatePlanInput where
  createdById := "ana"
  date := 10
  inviteCode := "C0DE"
  name := "Cena"
  placeId := "p1"

theorem new_plan_has_its_owner :
    ∃ m, ((begin threeUsers fun _ : Unit => .createPlan (anEnv "g1" ["m1"]) anasPlan).run
      [(), ()]).store.owners "g1" = [m] ∧ m.userId = "ana" ∧ m.status = .accepted :=
  every_group_keeps_its_owner threeUsers.users .empty .empty .empty threeUsers.places
    (fun _ : Unit => .createPlan (anEnv "g1" ["m1"]) anasPlan) [(), ()]
    (anasPlan.group (anEnv "g1" ["m1"])) (by decide)

end Feca.Social
