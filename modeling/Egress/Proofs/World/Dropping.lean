import Egress.Proofs.World.Waiting

set_option autoImplicit false

namespace Egress

open Tunnel

def Tunnel.Stake.giveBack (p : Pool) : Stake → Pool
  | .waiting _ => p.withdraw
  | .creating => p.creationFailed
  | .leasing slot => p.release slot

theorem Tunnel.Stake.giveBack_planned (p : Pool) (x : Stake) :
    (x.giveBack p).planned = p.planned - 1 := by
  cases x <;> rfl

namespace World

variable {w : World} {lost : Nat → Multiset Stake}

theorem abandon_pool (id : String) (g : Nat) : (w.abandon id).pool g = w.pool g := by
  unfold abandon
  split
  next d _ => exact congrArg (·.pool) ((dropDial_level d).standing g)
  next => rfl

theorem Sound.planned_pos (sound : Sound lost w) {id : String} {t : TunnelDial}
    (found : w.tunnelDial? id = some t) : 0 < (w.pool t.generation).planned := by
  have stake : t.stage.stake ∈ w.dialStakes t.generation :=
    (mem_dialStakes sound.regular).mpr ⟨id, t, found, rfl, rfl⟩
  have some : 0 < (w.dialStakes t.generation).card := Multiset.card_pos_iff_exists_mem.mpr ⟨_, stake⟩
  have planned := (sound.balanced t.generation).planned
  simp only [Multiset.card_add] at planned
  omega

-- Once no dial of a generation is under way and all its streams are released, its pool is as it
-- should be just if nothing has been lost there.
theorem Sound.rest_iff (sound : Sound lost w) {g : Nat} (dials : w.dialsOf g = [])
    (streams : w.openStreams g = []) :
    ((w.pool g).planned = 0 ∧ (∀ s ∈ (w.pool g).slots, s.refs = 0) ∧
      (w.pool g).sessions = (w.pool g).slots.length) ↔ lost g = 0 := by
  have planned := sound.planned g
  have sessions := sound.sessions g
  simp only [dials, streams, List.length_nil, List.countP_nil, Nat.zero_add, Nat.add_zero] at planned sessions
  constructor
  · rintro ⟨none, -, -⟩
    exact Multiset.card_eq_zero.mp (planned.symm.trans none)
  · intro none
    refine ⟨by simp [planned, none], fun s member => ?_, by simp [sessions, none]⟩
    simpa [dials, streams, none] using sound.refs g member

def forfeits (w : World) : List (World → Move) → Nat → Multiset Stake
  | [], _ => 0
  | choose :: rest, g => w.forfeit (choose w) g + (w.move (choose w)).forfeits rest g

end World

namespace Scenario.Setup

variable {s : Setup} {lost : Nat → Multiset Stake} {w : World}

theorem Loses.along (loses : s.Loses lost w) (path : List (World → Move))
    (permitted : w.Permits (fun _ => True) path) :
    s.Loses (fun g => lost g + w.forfeits path g) (w.along path) := by
  induction path generalizing w lost with
  | nil => simpa [World.forfeits, World.along] using loses
  | cons choose rest ih =>
    have later := ih (loses.move (choose w) permitted.2.1) permitted.2.2
    simpa only [World.forfeits, World.along, Multiset.add_assoc] using later

-- Wherever a dial through the tunnel is dropped, its pool stays as it is, which is not what it
-- would be if the dial gave back what it has there. So the pool is at rest with all dials and
-- streams gone just if none of them was dropped, and a dial may wait for a session that a dropped
-- one was to create.
theorem Loses.leaks (loses : s.Loses lost w) :
    (∀ id t, w.tunnelDial? id = some t →
      (w.abandon id).pool t.generation = w.pool t.generation ∧
      t.stage.stake.giveBack (w.pool t.generation) ≠ w.pool t.generation) ∧
    (∀ g, (w.pool g).planned =
        (w.dialsOf g).length + (w.openStreams g).length + (lost g).card ∧
      (w.pool g).sessions = (w.pool g).slots.length + (w.dialsOf g).countP (·.isCreating) +
        (lost g).count .creating ∧
      ∀ slot ∈ (w.pool g).slots, slot.refs = (w.dialsOf g).countP (·.leases slot.id) +
        (w.openStreams g).countP (·.slot = slot.id) + (lost g).count (.leasing slot.id)) ∧
    (∀ g, w.dialsOf g = [] → w.openStreams g = [] →
      (((w.pool g).planned = 0 ∧ (∀ slot ∈ (w.pool g).slots, slot.refs = 0) ∧
        (w.pool g).sessions = (w.pool g).slots.length) ↔ lost g = 0)) ∧
    (w.Settled → ∀ id g, w.Waits id g →
      (∃ other, other ≠ id ∧ w.Creates other g) ∨ .creating ∈ lost g) := by
  have sound := loses.sound
  refine ⟨fun id t found => ⟨World.abandon_pool id _, fun same => ?_⟩, fun g => ?_,
    fun g => sound.rest_iff, fun settled id g waits => (sound.waits settled waits).1⟩
  · have planned := congrArg Pool.planned same
    rw [Stake.giveBack_planned] at planned
    have := sound.planned_pos found
    omega
  · exact ⟨sound.planned g, sound.sessions g, fun slot => sound.refs g⟩

def linking : World :=
  small.build.along
    [fun w => .dial "d" (.via .tunnel false) "tcp" "a.test:80" w.root, fun _ => .poll (.call "d")]

def dropping : List (World → Move) :=
  [fun _ => .abandon "d",
    fun w => .dial "e" (.via .tunnel false) "tcp" "b.test:80" w.root,
    fun _ => .poll (.call "e"),
    fun _ => .poll .dispatcher,
    fun _ => .poll .addressWatch,
    fun _ => .poll .dispatcher]

theorem leaks_dropping :
    (∃ t ∈ linking.tunnelDial? "d",
      (linking.abandon "d").pool t.generation = linking.pool t.generation ∧
        t.stage.stake.giveBack (linking.pool t.generation) ≠ linking.pool t.generation) ∧
    (((linking.abandon "d").pool 1).planned = 0 ∧
        (∀ slot ∈ ((linking.abandon "d").pool 1).slots, slot.refs = 0) ∧
        ((linking.abandon "d").pool 1).sessions = ((linking.abandon "d").pool 1).slots.length ↔
      linking.forfeit (.abandon "d") 1 = 0) ∧
    ((∃ other, other ≠ "e" ∧ (linking.along dropping).Creates other 1) ∨
      .creating ∈ linking.forfeits dropping 1) := by
  have reached : small.Reaches Move.Driven linking := World.run_along (by decide +kernel)
  have dropped := reached.loses.move (.abandon "d") (by decide +kernel)
  have stranded := reached.loses.along dropping (by decide +kernel)
  have waits : (linking.along dropping).Waits "e" 1 := by decide +kernel
  have settled : (linking.along dropping).Settled := by decide +kernel
  refine ⟨?_, ?_, ?_⟩
  · obtain ⟨t, found⟩ := Option.isSome_iff_exists.mp
      (by decide +kernel : (linking.tunnelDial? "d").isSome)
    exact ⟨t, found, reached.loses.leaks.1 "d" t found⟩
  · have rest := dropped.leaks.2.2.1 1 (by decide +kernel) (by decide +kernel)
    rw [Multiset.zero_add] at rest
    exact rest
  · simpa only [Multiset.zero_add] using stranded.leaks.2.2.2 settled "e" 1 waits

-- A dial that is dropped while it creates a session leaves behind a session that nobody creates,
-- and others that wait for it.
theorem dropped_dial_strands_waiter :
    ∃ w, small.Reaches (fun _ => True) w ∧ w.Settled ∧ w.Waits "e" 1 ∧
      (∀ other, ¬ w.Creates other 1) ∧
      (w.pool 1).planned = 2 ∧ (w.pool 1).sessions = 1 ∧ (w.pool 1).slots = [] := by
  have reached : small.Reaches (fun _ => True) linking := World.run_along (by decide +kernel)
  refine ⟨linking.along dropping, reached.trans (World.run_along (by decide +kernel)),
    by decide +kernel, by decide +kernel, fun other creates => ?_, by decide +kernel⟩
  have nobody : ∀ c ∈ (linking.along dropping).calls,
      ¬ (linking.along dropping).Creates c.1 1 := by decide +kernel
  obtain ⟨c, member⟩ := creates.mem
  exact nobody _ member creates

end Scenario.Setup

end Egress
