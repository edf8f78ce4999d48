import Egress.Proofs.Event.Feeding

set_option autoImplicit false

namespace Egress.Event

open Happening

-- What can be told from the history alone.
structure Recorded (nextId : Nat) (history : List Happening) : Prop where
  known : ∀ e ∈ history, ∀ id, e.subscription? = some id → id < nextId
  once : ∀ id m n start begun, .subscribed id m start ∈ history → .subscribed id n begun ∈ history →
    m = n ∧ start = begun
  answers : ∀ id mask start k, .subscribed id mask start ∈ history → .received id k ∈ history →
    mask.contains k
  bounded : ∀ id mask start k, .subscribed id mask start ∈ history →
    history.count (.received id k) ≤
      (since id history).count (.raised k) + (start.contains k).toNat

namespace Exchange

structure Filed (x : Exchange) : Prop where
  numbers : (x.bus.subscriptions.map (·.id)).Nodup
  fresh : ∀ s ∈ x.bus.subscriptions, s.id < x.bus.nextId
  listed : ∀ s ∈ x.bus.subscriptions, s.listed
  fed : ∀ s ∈ x.bus.subscriptions, s.Fed x.bus.raised x.place x.history
  older : ∀ a ∈ x.place.arms, a.1 < x.bus.nextId
  present : ∀ id mask start, .subscribed id mask start ∈ x.history → .left id ∉ x.history →
    ∃ s ∈ x.bus.subscriptions, s.id = id ∧ s.held

-- What is marked was raised since the dispatcher last absorbed, and the dispatcher is told of it.
structure Called (x : Exchange) : Prop where
  word : ∀ k, x.bus.raised.contains k ↔ ∃ r ∈ x.gathered, r.kind = k
  told : ∀ first ∈ x.gathered.head?, first.number ∈ x.calling ∨ x.bus.wake ∨ x.place = .woken

structure Sound (x : Exchange) : Prop where
  recorded : Recorded x.bus.nextId x.history
  filed : x.Filed
  called : x.Called

end Exchange

section Records

variable {nextId id : Nat} {k : Kind} {e : Happening} {history : List Happening}

theorem Recorded.quiet (recorded : Recorded nextId history)
    (came : ∀ id mask start, e ≠ .subscribed id mask start) (receipt : ∀ id k, e ≠ .received id k)
    (known : ∀ id, e.subscription? = some id → id < nextId) : Recorded nextId (e :: history) := by
  have before {id : Nat} {mask start : Mask} (h : .subscribed id mask start ∈ e :: history) :
      .subscribed id mask start ∈ history :=
    (List.mem_cons.mp h).resolve_left (came id mask start).symm
  refine ⟨fun d member => ?_, fun id m n start begun one two => ?_,
    fun id mask start k one two => ?_, fun id mask start k one => ?_⟩
  · rcases List.mem_cons.mp member with rfl | old
    · exact known
    · exact recorded.known d old
  · exact recorded.once id m n start begun (before one) (before two)
  · exact recorded.answers id mask start k (before one)
      ((List.mem_cons.mp two).resolve_left (receipt id k).symm)
  · have later : e.isComingOf id = false := by
      cases e with
      | subscribed other mask start => exact absurd rfl (came other mask start)
      | raised | left | received => rfl
    have bounded := recorded.bounded id mask start k (before one)
    rw [since_cons later, List.count_cons_of_ne (receipt id k), List.count_cons]
    omega

theorem Recorded.subscribed (recorded : Recorded nextId history) (mask start : Mask) :
    Recorded (nextId + 1) (.subscribed nextId mask start :: history) := by
  have unknown {e : Happening} (member : e ∈ history) (of : e.subscription? = some nextId) :
      False := Nat.lt_irrefl _ (recorded.known e member nextId of)
  refine ⟨fun e member id of => ?_, fun id m n begun other one two => ?_,
    fun id m begun k one two => ?_, fun id m begun k one => ?_⟩
  · rcases List.mem_cons.mp member with rfl | old
    · cases of
      exact Nat.lt_succ_self _
    · exact Nat.lt_succ_of_lt (recorded.known e old id of)
  · rcases List.mem_cons.mp one with one | one <;> rcases List.mem_cons.mp two with two | two
    · cases one
      cases two
      exact ⟨rfl, rfl⟩
    · cases one
      exact (unknown two rfl).elim
    · cases two
      exact (unknown one rfl).elim
    · exact recorded.once id m n begun other one two
  · have two := (List.mem_cons.mp two).resolve_left Happening.noConfusion
    rcases List.mem_cons.mp one with one | one
    · cases one
      exact (unknown two rfl).elim
    · exact recorded.answers id m begun k one two
  · rw [List.count_cons_of_ne Happening.noConfusion]
    rcases List.mem_cons.mp one with one | one
    · cases one
      rw [List.count_eq_zero_of_not_mem fun member => unknown member rfl]
      exact Nat.zero_le _
    · have earlier := Nat.ne_of_gt (recorded.known _ one id rfl)
      rw [since_cons (by simp [isComingOf, earlier]), List.count_cons_of_ne Happening.noConfusion]
      exact recorded.bounded id m begun k one

theorem Recorded.received {s : Subscription} {word : Mask} {place : Place}
    (recorded : Recorded nextId history) (fed : s.Fed word place history)
    (filled : s.slot = some k) : Recorded nextId (.received s.id k :: history) := by
  have before {id : Nat} {mask start : Mask}
      (h : .subscribed id mask start ∈ Happening.received s.id k :: history) :
      .subscribed id mask start ∈ history := (List.mem_cons.mp h).resolve_left Happening.noConfusion
  obtain ⟨begun, asked⟩ := fed.asked
  refine ⟨fun e member => ?_, fun id m n start begun one two => ?_,
    fun id mask start l one two => ?_, fun id mask start l one => ?_⟩
  · rcases List.mem_cons.mp member with rfl | old
    · rintro id ⟨⟩
      exact recorded.known _ asked s.id rfl
    · exact recorded.known e old
  · exact recorded.once id m n start begun (before one) (before two)
  · rcases List.mem_cons.mp two with now | old
    · cases now
      obtain ⟨rfl, -⟩ := recorded.once s.id mask s.mask start begun (before one) asked
      exact fed.fills k filled
    · exact recorded.answers id mask start l (before one) old
  · rw [since_cons rfl, List.count_cons, List.count_cons_of_ne Happening.noConfusion]
    by_cases now : Happening.received s.id k = .received id l
    · cases now
      have counted := fed.counted mask start k (before one)
      have coming : 0 < s.load word place k := by simp [Subscription.load, filled]
      simp only [beq_self_eq_true, if_true]
      omega
    · simpa [now] using recorded.bounded id mask start l (before one)

end Records

namespace Exchange

variable {x next : Exchange}

theorem Filed.change {f : Subscription → Subscription} (filed : x.Filed)
    (same : ∀ s, (f s).id = s.id)
    (left : next.bus.subscriptions.Sublist (x.bus.subscriptions.map f))
    (nextId : next.bus.nextId = x.bus.nextId)
    (served : ∀ s ∈ x.bus.subscriptions, f s ∈ next.bus.subscriptions →
      (f s).listed ∧ (f s).Fed next.bus.raised next.place next.history)
    (older : ∀ a ∈ next.place.arms, a.1 < x.bus.nextId)
    (stay : ∀ id mask start, .subscribed id mask start ∈ next.history → .left id ∉ next.history →
      .subscribed id mask start ∈ x.history ∧ .left id ∉ x.history ∧
        ∀ s ∈ x.bus.subscriptions, s.id = id → s.held →
          f s ∈ next.bus.subscriptions ∧ (f s).held) : next.Filed := by
  have keys : (x.bus.subscriptions.map f).map (·.id) = x.bus.subscriptions.map (·.id) := by
    rw [List.map_map]
    exact List.map_congr_left fun s _ => same s
  refine ⟨(left.map _).nodup (keys.symm ▸ filed.numbers), fun t member => ?_, fun t member => ?_,
    fun t member => ?_, fun a arm => nextId ▸ older a arm, fun id mask start came gone => ?_⟩
  · obtain ⟨s, was, rfl⟩ := List.mem_map.mp (left.subset member)
    rw [same, nextId]
    exact filed.fresh s was
  · obtain ⟨s, was, rfl⟩ := List.mem_map.mp (left.subset member)
    exact (served s was member).1
  · obtain ⟨s, was, rfl⟩ := List.mem_map.mp (left.subset member)
    exact (served s was member).2
  · obtain ⟨came, gone, stays⟩ := stay id mask start came gone
    obtain ⟨s, member, number, held⟩ := filed.present id mask start came gone
    obtain ⟨there, still⟩ := stays s member number held
    exact ⟨f s, there, (same s).trans number, still⟩

theorem Filed.remain (filed : x.Filed) (same : next.bus.subscriptions = x.bus.subscriptions)
    (nextId : next.bus.nextId = x.bus.nextId)
    (served : ∀ s ∈ x.bus.subscriptions, s.Fed x.bus.raised x.place x.history →
      s.Fed next.bus.raised next.place next.history)
    (older : ∀ a ∈ next.place.arms, a.1 < x.bus.nextId)
    (stay : ∀ e ∈ next.history, e ∈ x.history ∨ ∃ k, e = .raised k)
    (kept : ∀ e ∈ x.history, e ∈ next.history) : next.Filed := by
  refine filed.change (f := id) (fun _ => rfl) (by rw [same, List.map_id]) nextId
    (fun s member _ => ⟨filed.listed s member, served s member (filed.fed s member)⟩) older
    fun id mask start came gone => ?_
  exact ⟨(stay _ came).resolve_right fun ⟨_, raise⟩ => (nomatch raise),
    fun old => gone (kept _ old), fun s member _ held => ⟨same ▸ member, held⟩⟩

theorem Filed.update {id : Nat} {f : Subscription → Subscription} (filed : x.Filed)
    (left : next.bus.subscriptions = (x.bus.update id f).sweep.subscriptions)
    (same : ∀ s, (f s).id = s.id)
    (nextId : next.bus.nextId = x.bus.nextId)
    (served : ∀ s ∈ x.bus.subscriptions, s.id = id → ((f s).listed || (f s).held) →
      (f s).listed ∧ (f s).Fed next.bus.raised next.place next.history)
    (others : ∀ s ∈ x.bus.subscriptions, s.id ≠ id → s.Fed next.bus.raised next.place next.history)
    (older : ∀ a ∈ next.place.arms, a.1 < x.bus.nextId)
    (stay : ∀ other mask start, .subscribed other mask start ∈ next.history →
      .left other ∉ next.history → .subscribed other mask start ∈ x.history ∧
        .left other ∉ x.history ∧ (other = id → ∀ s, s.held → (f s).held)) : next.Filed := by
  refine filed.change (f := fun s => if s.id = id then f s else s) (Bus.update_same same)
    (left ▸ List.filter_sublist) nextId (fun s member there => ?_) older
    fun other mask start came gone => ?_
  · rw [left] at there
    have needed := (List.mem_filter.mp there).2
    by_cases hit : s.id = id
    · rw [if_pos hit] at needed ⊢
      exact served s member hit needed
    · rw [if_neg hit]
      exact ⟨filed.listed s member, others s member hit⟩
  · obtain ⟨came, gone, holds⟩ := stay other mask start came gone
    refine ⟨came, gone, fun s member number held => ?_⟩
    have still : (if s.id = id then f s else s).held := by
      split
      next hit => exact holds (number.symm.trans hit) s held
      next => exact held
    exact ⟨left ▸ List.mem_filter.mpr ⟨List.mem_map_of_mem member, by simp [still]⟩, still⟩

theorem Called.same (called : x.Called) (raised : next.bus.raised = x.bus.raised)
    (wake : next.bus.wake = x.bus.wake) (gathered : next.gathered = x.gathered)
    (calling : next.calling = x.calling) (place : x.place = .woken → next.place = .woken) :
    next.Called where
  word k := by rw [raised, gathered]; exact called.word k
  told first head := by
    rw [gathered] at head
    rw [calling, wake]
    exact (called.told first head).imp_right (.imp_right place)

theorem Sound.mark (sound : x.Sound) (k : Kind) : (x.act (.mark k)).Sound where
  recorded := sound.recorded.quiet (fun _ _ _ => Happening.noConfusion)
    (fun _ _ => Happening.noConfusion) fun _ none => nomatch none
  filed := by
    refine sound.filed.remain rfl rfl (fun s _ fed => fed.mark k) sound.filed.older
      (fun e member => ?_) fun e member => List.mem_cons_of_mem _ member
    exact (List.mem_cons.mp member).symm.imp_right fun now => ⟨k, now⟩
  called := by
    refine ⟨fun l => ?_, fun first head => ?_⟩
    · simp [act, Bus.mark, sound.called.word l, or_and_right, exists_or]
    · simp only [act, Bus.mark] at head ⊢
      cases gathered : x.gathered with
      | nil =>
        have nothing : x.bus.raised.isEmpty := Mask.isEmpty_iff.mpr fun l => by
          simpa [gathered] using sound.called.word l
        simp [gathered] at head
        simp [nothing, ← head]
      | cons earlier rest =>
        simp only [gathered, List.cons_append, List.head?_cons, Option.mem_some_iff] at head
        have told := sound.called.told first (by simp [gathered, head])
        refine told.imp_left fun calls => ?_
        by_cases nothing : x.bus.raised.isEmpty <;> simp [nothing, calls]

theorem Sound.call (sound : x.Sound) (number : Nat) : (x.act (.call number)).Sound where
  recorded := sound.recorded
  filed := sound.filed.remain rfl rfl (fun _ _ fed => fed) sound.filed.older (fun _ => .inl)
    fun _ member => member
  called := ⟨sound.called.word, fun _ _ => .inr (.inl rfl)⟩

theorem Sound.subscribe (sound : x.Sound) (kinds : List Kind) :
    (x.act (.subscribe kinds)).Sound where
  recorded := sound.recorded.subscribed _ _
  filed := by
    obtain ⟨numbers, fresh, listed, fed, older, present⟩ := sound.filed
    refine ⟨nodup_append numbers fun s member => Nat.ne_of_lt (fresh s member), fun s member => ?_,
      fun s member => ?_, fun s member => ?_, fun a arm => Nat.lt_succ_of_lt (older a arm),
      fun id mask start came gone => ?_⟩
    · rcases List.mem_append.mp member with old | new
      · exact Nat.lt_succ_of_lt (fresh s old)
      · rw [List.mem_singleton.mp new]
        exact Nat.lt_succ_self _
    · rcases List.mem_append.mp member with old | new
      · exact listed s old
      · rw [List.mem_singleton.mp new]
    · rcases List.mem_append.mp member with old | new
      · refine (fed s old).beside (fun _ => Happening.noConfusion) ?_ fun _ => Happening.noConfusion
        simp [isComingOf, Nat.ne_of_gt (fresh s old)]
      · rw [List.mem_singleton.mp new]
        exact .first _ older fun e member of =>
          Nat.lt_irrefl _ (sound.recorded.known e member _ of)
    · rcases List.mem_cons.mp came with now | before
      · cases now
        exact ⟨_, List.mem_append_right _ (List.mem_singleton.mpr rfl), rfl, rfl⟩
      · obtain ⟨s, member, rest⟩ := present id mask start before fun old =>
          gone (List.mem_cons_of_mem _ old)
        exact ⟨s, List.mem_append_left _ member, rest⟩
  called := sound.called.same rfl rfl rfl rfl fun woken => woken

section Leaving

variable {id : Nat} {f : Subscription → Subscription}

theorem Sound.leave (sound : x.Sound) (holds : x.bus.holds id)
    (left : next.bus = (x.bus.update id f).sweep) (same : ∀ s, (f s).id = s.id)
    (place : next.place = x.place)
    (history : next.history = .left id :: x.history) (gathered : next.gathered = x.gathered)
    (calling : next.calling = x.calling)
    (served : ∀ s, s.listed → s.Fed x.bus.raised x.place x.history →
      ((f s).listed || (f s).held) → s.id = id →
        (f s).listed ∧ (f s).Fed x.bus.raised x.place (.left s.id :: x.history)) :
    next.Sound := by
  have known : id < x.bus.nextId := by
    obtain ⟨s, member, this⟩ := List.any_eq_true.mp holds
    simp only [Bool.and_eq_true, decide_eq_true_eq] at this
    exact this.1 ▸ sound.filed.fresh s member
  refine ⟨?_, ?_, sound.called.same (by rw [left]; rfl) (by rw [left]; rfl) gathered calling
    fun woken => place.trans woken⟩
  · rw [left, history]
    refine sound.recorded.quiet (fun _ _ _ => Happening.noConfusion)
      (fun _ _ => Happening.noConfusion) ?_
    rintro _ ⟨⟩
    exact known
  · refine sound.filed.update (congrArg _ left) same (by rw [left]; rfl)
      (fun s member number needed => ?_) (fun s member other => ?_) ?_
      fun other mask start came gone => ?_
    · rw [left, place, history, ← number]
      exact served s (sound.filed.listed s member) (sound.filed.fed s member) needed number
    · rw [left, place, history]
      exact (sound.filed.fed s member).beside (fun _ => Happening.noConfusion) rfl
        fun _ => Happening.noConfusion
    · rw [place]
      exact sound.filed.older
    · rw [history] at came gone
      rw [List.mem_cons, not_or] at gone
      refine ⟨(List.mem_cons.mp came).resolve_left Happening.noConfusion, gone.2, fun hit => ?_⟩
      exact absurd (congrArg Happening.left hit) gone.1

theorem Sound.unsubscribe (sound : x.Sound) (allowed : x.allows (.unsubscribe id)) :
    (x.act (.unsubscribe id)).Sound :=
  sound.leave allowed rfl (fun _ => rfl) rfl rfl rfl rfl fun _ _ _ needed => (nomatch needed)

theorem Sound.drop (sound : x.Sound) (allowed : x.allows (.drop id)) :
    (x.act (.drop id)).Sound :=
  sound.leave allowed rfl (fun _ => rfl) rfl rfl rfl rfl fun _ listed fed _ _ => ⟨listed, fed.leave⟩

end Leaving

theorem receive_cases (x : Exchange) (id : Nat) : x.act (.receive id) = x ∨
    ∃ s k, s ∈ x.bus.subscriptions ∧ s.id = id ∧ s.slot = some k ∧
      x.act (.receive id) = { x with
        bus := (x.bus.update id fun s => { s with slot := none }).sweep
        history := .received id k :: x.history } := by
  cases found : x.bus.find? id with
  | none => exact .inl (by simp [act, Bus.receive, found])
  | some s =>
    cases filled : s.slot with
    | none =>
      refine .inl ?_
      cases listed : s.listed <;> simp [act, Bus.receive, found, filled, listed]
    | some k =>
      exact .inr ⟨s, k, List.mem_of_find?_eq_some found, by simpa using List.find?_some found,
        filled, by simp [act, Bus.receive, found, filled]⟩

theorem Sound.receive (sound : x.Sound) (id : Nat) : (x.act (.receive id)).Sound := by
  rcases x.receive_cases id with nothing | ⟨s, k, member, rfl, filled, received⟩
  · rw [nothing]
    exact sound
  · rw [received]
    have fed := sound.filed.fed s member
    refine ⟨sound.recorded.received fed filled, ?_, sound.called.same rfl rfl rfl rfl (fun w => w)⟩
    refine sound.filed.update rfl (fun _ => rfl) rfl (fun t there number _ => ?_)
      (fun t there other => ?_) sound.filed.older fun other mask start came gone => ?_
    · obtain rfl := eq_of_key sound.filed.numbers there member number
      exact ⟨sound.filed.listed t there, fed.receive filled⟩
    · exact (sound.filed.fed t there).beside (fun _ => Happening.noConfusion) rfl
        fun _ same => other (Happening.received.inj same).1.symm
    · rw [List.mem_cons, not_or] at gone
      exact ⟨(List.mem_cons.mp came).resolve_left Happening.noConfusion, gone.2,
        fun _ _ held => held⟩

theorem Sound.absorb (sound : x.Sound) (allowed : x.allows .absorb) : (x.act .absorb).Sound := by
  obtain ⟨later, onward, place⟩ : ∃ later, (later = .looking ∨ later = .arming) ∧
      (x.act .absorb).place = later := by
    refine ⟨_, ?_, rfl⟩
    dsimp only [Exchange.act]
    split
    · exact .inl rfl
    · exact .inr rfl
  refine ⟨sound.recorded, ?_, ⟨fun k => ?_, fun first head => nomatch head⟩⟩
  · refine sound.filed.change
      (f := fun s =>
        if s.listed then { s with pending := s.pending.union (x.bus.raised.inter s.mask) } else s)
      (fun s => ?_) (.refl _) rfl (fun s member _ => ?_) (fun a arm => ?_)
      fun id mask start came gone => ⟨came, gone, fun s member _ held => ?_⟩
    · split <;> rfl
    · have listed := sound.filed.listed s member
      rw [if_pos listed, place]
      exact ⟨listed, (sound.filed.fed s member).absorb allowed onward⟩
    · rw [place] at arm
      rcases onward with rfl | rfl <;> cases arm
    · refine ⟨List.mem_map_of_mem member, ?_⟩
      rw [if_pos (sound.filed.listed s member)]
      exact held
  · simp [Exchange.act, Bus.absorb]

theorem arm_not_handed {place : Place} {arm : Nat × Kind} (member : arm ∈ place.arms) (id : Nat)
    (k : Kind) : place ≠ .handed id k := by
  rintro rfl
  cases member

theorem Filed.mem_arms_iff {s : Subscription} {k : Kind} (filed : x.Filed)
    (member : s ∈ x.bus.subscriptions) : (s.id, k) ∈ x.bus.arms ↔ s.pending.lowest = some k := by
  refine ⟨fun arm => ?_, fun lowest => mem_arms member (filed.listed s member) lowest⟩
  obtain ⟨t, there, first⟩ := List.mem_filterMap.mp arm
  obtain ⟨-, lowest, same⟩ : t.listed ∧ t.pending.lowest = some k ∧ t.id = s.id := by
    simpa using first
  exact eq_of_key filed.numbers there member same ▸ lowest

theorem Sound.arm (sound : x.Sound) (allowed : x.allows .arm) : (x.act .arm).Sound where
  recorded := sound.recorded
  filed := by
    refine sound.filed.remain rfl rfl (fun s member fed => ?_) (fun a arm => ?_) (fun _ => .inl)
      fun _ member => member
    · exact fed.stand (fun k => by simp [show x.place = .arming from allowed])
        (fun _ => Place.noConfusion) fun _ k => sound.filed.mem_arms_iff member
    · obtain ⟨s, member, first⟩ := List.mem_filterMap.mp arm
      have same : s.id = a.1 := by
        split at first
        · obtain ⟨_, -, rfl⟩ := Option.map_eq_some_iff.mp first
          rfl
        · cases first
      exact same ▸ sound.filed.fresh s member
  called := sound.called.same rfl rfl rfl rfl fun woken =>
    Place.noConfusion ((show x.place = .arming from allowed).symm.trans woken)

theorem Sound.wake (sound : x.Sound) (allowed : x.allows .wake) : (x.act .wake).Sound where
  recorded := sound.recorded
  filed := by
    refine sound.filed.remain rfl rfl (fun s member fed => ?_) (fun _ arm => nomatch arm)
      (fun _ => .inl) fun _ member => member
    refine fed.stand (fun k handed => ?_) (fun _ => Place.noConfusion) fun armed => nomatch armed
    have armed := allowed.1
    rw [handed] at armed
    cases armed
  called := ⟨sound.called.word, fun _ _ => .inr (.inr rfl)⟩

section Serving

variable {id : Nat} {k : Kind}

theorem Sound.hand (sound : x.Sound) (allowed : x.allows (.hand id k)) :
    (x.act (.hand id k)).Sound where
  recorded := sound.recorded
  filed := by
    obtain ⟨arm, room⟩ := allowed
    obtain ⟨t, there, this⟩ := List.any_eq_true.mp room
    simp only [Bool.and_eq_true, decide_eq_true_eq, Option.isNone_iff_eq_none] at this
    obtain ⟨⟨rfl, -⟩, free⟩ := this
    refine sound.filed.change (f := fun s => if s.id = t.id then { s with slot := some k } else s)
      (fun s => ?_) (.refl _) rfl (fun s member _ => ?_) (fun _ none => nomatch none)
      fun other mask start came gone => ⟨came, gone, fun s member _ held => ?_⟩
    · split <;> rfl
    · have fed := sound.filed.fed s member
      split
      next hit =>
        obtain rfl := eq_of_key sound.filed.numbers member there hit
        exact ⟨sound.filed.listed s member, fed.hand arm free⟩
      next other =>
        refine ⟨sound.filed.listed s member, fed.stand (arm_not_handed arm s.id) (fun l same => ?_)
          fun armed => nomatch armed⟩
        exact other (Place.handed.inj same).1.symm
    · refine ⟨List.mem_map_of_mem member, ?_⟩
      split <;> exact held
  called := sound.called.same rfl rfl rfl rfl fun woken => by
    obtain ⟨arm, -⟩ := allowed
    rw [woken] at arm
    cases arm

theorem Sound.forget (sound : x.Sound) (allowed : x.allows (.forget id k)) :
    (x.act (.forget id k)).Sound where
  recorded := sound.recorded
  filed := by
    obtain ⟨arm, gone⟩ := allowed
    have dropped {s : Subscription} (member : s ∈ x.bus.subscriptions) (hit : s.id = id) :
        s.held = false := by
      simpa [hit] using List.any_eq_false.mp gone s member
    refine sound.filed.change
      (f := fun s => if s.id = id then { s with listed := false } else s)
      (fun s => ?_) List.filter_sublist rfl (fun s member there => ?_) (fun _ none => nomatch none)
      fun other mask start came gone => ⟨came, gone, fun s member _ held => ?_⟩
    · split <;> rfl
    · have needed := (List.mem_filter.mp there).2
      split at needed
      next hit => simp [dropped member hit] at needed
      next other =>
        rw [if_neg other]
        exact ⟨sound.filed.listed s member, (sound.filed.fed s member).stand
          (arm_not_handed arm s.id) (fun _ => Place.noConfusion) fun armed => nomatch armed⟩
    · have other : s.id ≠ id := fun hit => by
        rw [dropped member hit] at held
        cases held
      rw [if_neg other]
      refine ⟨List.mem_filter.mpr ⟨List.mem_map.mpr ⟨s, member, if_neg other⟩, ?_⟩, held⟩
      simp [held]
  called := sound.called.same rfl rfl rfl rfl fun woken => by
    obtain ⟨arm, -⟩ := allowed
    rw [woken] at arm
    cases arm

theorem Sound.clear (sound : x.Sound) (allowed : x.allows (.clear id k)) :
    (x.act (.clear id k)).Sound where
  recorded := sound.recorded
  filed := by
    have place : x.place = .handed id k := allowed
    refine sound.filed.update rfl (fun _ => rfl) rfl (fun s member number _ => ?_)
      (fun s member other => ?_) (fun _ none => nomatch none)
      fun _ _ _ came gone => ⟨came, gone, fun _ _ held => held⟩
    · have fed := sound.filed.fed s member
      rw [place, ← number] at fed
      exact ⟨sound.filed.listed s member, fed.clear⟩
    · refine (sound.filed.fed s member).stand (fun l same => ?_) (fun _ => Place.noConfusion)
        fun armed => nomatch armed
      exact other (Place.handed.inj (place.symm.trans same)).1.symm
  called := sound.called.same rfl rfl rfl rfl fun woken =>
    Place.noConfusion ((show x.place = .handed id k from allowed).symm.trans woken)

end Serving

theorem Sound.act {a : Act} (sound : x.Sound) (allowed : x.allows a) : (x.act a).Sound := by
  cases a with
  | mark k => exact sound.mark k
  | call number => exact sound.call number
  | subscribe kinds => exact sound.subscribe kinds
  | unsubscribe id => exact sound.unsubscribe allowed
  | drop id => exact sound.drop allowed
  | receive id => exact sound.receive id
  | absorb => exact sound.absorb allowed
  | arm => exact sound.arm allowed
  | wake => exact sound.wake allowed
  | hand id k => exact sound.hand allowed
  | forget id k => exact sound.forget allowed
  | clear id k => exact sound.clear allowed

theorem Reaches.sound (reached : x.Reaches) : x.Sound := by
  induction reached with
  | refl =>
    refine ⟨⟨?_, ?_, ?_, ?_⟩, ⟨List.nodup_nil, ?_, ?_, ?_, ?_, ?_⟩, ⟨fun k => ?_, ?_⟩⟩ <;>
      simp [Place.arms]
  | tail _ goes ih =>
    obtain ⟨a, allowed, rfl⟩ := goes
    exact ih.act allowed

-- The bus delivers what is raised, and nothing else. A subscription hears only of what it asked
-- for. Of that it owes nothing that is not on its way, for as long as the subscription is held. The
-- dispatcher does not wait while it has anything to do: something marked is left to it only until
-- the raise that found nothing marked has called. And what was received has been raised, since the
-- subscription came or just before.
structure Delivers (x : Exchange) : Prop where
  asked : ∀ id mask start k, .subscribed id mask start ∈ x.history → .received id k ∈ x.history →
    mask.contains k
  kept : ∀ id mask start k, .subscribed id mask start ∈ x.history → .left id ∉ x.history →
    mask.contains k → .raised k ∈ unanswered id k x.history →
      x.bus.raised.contains k ∨
        ∃ s, x.bus.find? id = some s ∧ s.mask = mask ∧ (s.pending.contains k ∨ s.slot = some k)
  marked : ∀ k, x.bus.raised.contains k ↔ ∃ r ∈ x.gathered, r.kind = k
  absorbs : x.Parked → ∀ first ∈ x.gathered.head?, ¬x.Completed first
  hands : x.Parked → ∀ s ∈ x.bus.subscriptions, s.listed → s.held → s.pending.isEmpty = false →
    s.slot.isSome
  bounded : ∀ id mask start k, .subscribed id mask start ∈ x.history →
    x.history.count (.received id k) ≤
      (since id x.history).count (.raised k) + (if start.contains k then 1 else 0)

theorem Filed.find {s : Subscription} (filed : x.Filed) (member : s ∈ x.bus.subscriptions) :
    x.bus.find? s.id = some s := find_of_key filed.numbers member

theorem Reaches.delivers (reached : x.Reaches) : x.Delivers := by
  obtain ⟨recorded, filed, called⟩ := reached.sound
  refine ⟨recorded.answers, ?_, called.word, ?_, ?_, ?_⟩
  · intro id mask start k came stays inside raised
    obtain ⟨s, member, rfl, held⟩ := filed.present id mask start came stays
    have fed := filed.fed s member
    obtain ⟨begun, asked⟩ := fed.asked
    obtain ⟨same, -⟩ := recorded.once s.id s.mask mask begun start asked came
    have coming := fed.covered held k (same ▸ inside) raised
    by_cases up : x.bus.raised.contains k
    · exact .inl up
    · refine .inr ⟨s, filed.find member, same, ?_⟩
      by_contra nowhere
      obtain ⟨waits, slot⟩ := not_or.mp nowhere
      simp [Subscription.load, Subscription.waitsFor, up, waits, beq_eq_false_iff_ne.mpr slot]
        at coming
  · intro parked first head completed
    obtain ⟨armed, uncalled, -⟩ := parked.waits
    rcases called.told first head with calls | called | woken
    · exact completed calls
    · rw [uncalled] at called
      cases called
    · rw [woken] at armed
      cases armed
  · intro parked s member _ held pending
    obtain ⟨armed, -, full⟩ := parked.waits
    obtain ⟨k, lowest⟩ := Mask.lowest_of_nonempty pending
    have room := (full s.id k (((filed.fed s member).arms armed k).mpr lowest)).2
    have filled := List.any_eq_false.mp room s member
    cases slot : s.slot with
    | some k => rfl
    | none => simp [held, slot] at filled
  · intro id mask start k came
    have bounded := recorded.bounded id mask start k came
    cases there : start.contains k <;> simpa [there] using bounded

-- Two raises cross: the second finds marked what the first has marked, so that it is complete, and
-- the first has still to call.
def overtaken : Exchange :=
  ({} : Exchange).along
    [.subscribe [.keysChanged], .absorb, .arm, .mark .sitesChanged, .mark .keysChanged]

theorem completed_raise_unabsorbed :
    overtaken.Reaches ∧ overtaken.Parked ∧ overtaken.bus.raised.contains .keysChanged ∧
      ∃ r ∈ overtaken.gathered, r.kind = .keysChanged ∧ overtaken.Completed r :=
  ⟨run_along (by decide), parked_of_waits rfl rfl fun _ _ none => (nomatch none), by decide,
    ⟨1, .keysChanged⟩, by decide, rfl, show 1 ∉ overtaken.calling by decide⟩

-- Two raises of one kind, the second between the handing over of the first and its clearing: the
-- one subscription hears of it twice, the other, which came after the first raise, once for both.
def crossing : Exchange :=
  ({} : Exchange).along
    [.subscribe [.sitesChanged], .mark .sitesChanged, .subscribe [], .call 0, .absorb, .arm,
     .wake, .absorb, .absorb, .arm, .hand 1 .sitesChanged, .mark .sitesChanged, .receive 1,
     .clear 1 .sitesChanged, .absorb, .arm, .call 1, .hand 2 .sitesChanged, .receive 2,
     .clear 2 .sitesChanged, .absorb, .arm, .hand 1 .sitesChanged, .receive 1]

theorem crossing_delivers :
    crossing.history.count (.received 1 .sitesChanged) = 2 ∧
      crossing.history.count (.received 2 .sitesChanged) = 1 ∧ crossing.Delivers :=
  ⟨by decide, by decide, Reaches.delivers (run_along (by decide))⟩

end Exchange

end Egress.Event
