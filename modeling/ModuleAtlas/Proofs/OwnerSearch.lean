import Mathlib.Logic.Function.Iterate
import ModuleAtlas.Proofs.Forest
import ModuleAtlas.Proofs.Leader

/-!
# The search for an owner

The owner of a member is looked for group by group, from the group itself to its parent, the parent
of that and so on.  Nothing bounds the number of these turns and nothing marks the groups that were
looked at.  The search ends because every parent was created before its children, and it goes all
the way up, unless it finds an owner before, because every parent exists.  A climb of bounded length
therefore finds the same owner: the first default module on the way that is not the member itself.
-/

namespace ModuleAtlas

namespace Atlas

/-! ## Turn by turn -/

inductive Search where
  /-- It goes on with a group or, above the root of a tree, with none. -/
  | looking (next : Option GroupId)
  | returned (owner : Option ModuleId)
  deriving DecidableEq

/--
One turn of the search.  It ends at a default module other than the given one, and also where a
handle leads to no group.
-/
def Search.turn (atlas : Atlas) (module : ModuleId) : Search → Search
  | looking none => returned none
  | looking (some id) =>
    match atlas.group? id with
    | none => returned none
    | some group =>
      match group.defaultModule.filter fun owner => owner ≠ module with
      | some owner => returned (some owner)
      | none => looking group.parent
  | returned owner => returned owner

def search (atlas : Atlas) (group : GroupId) (module : ModuleId) (turns : Nat) : Search :=
  (Search.turn atlas module)^[turns] (.looking (some group))

/-! ## The way up -/

def ancestor (atlas : Atlas) (group : GroupId) : Nat → Option GroupId
  | 0 => some group
  | distance + 1 =>
    (atlas.ancestor group distance).bind fun lower => (atlas.group? lower).bind Group.parent

def OffersAt (atlas : Atlas) (group : GroupId) (module : ModuleId) (distance : Nat)
    (owner : ModuleId) : Prop :=
  ∃ upper, atlas.ancestor group distance = some upper ∧ atlas.StandsFor owner upper ∧
    owner ≠ module

def NoOfferBelow (atlas : Atlas) (group : GroupId) (module : ModuleId) (distance : Nat) : Prop :=
  ∀ nearer < distance, ∀ other, ¬ atlas.OffersAt group module nearer other

/-- A module is the first default module on the way up that is not the given one. -/
def FirstOffer (atlas : Atlas) (group : GroupId) (module owner : ModuleId) : Prop :=
  ∃ distance, atlas.OffersAt group module distance owner ∧
    atlas.NoOfferBelow group module distance

section Way

variable {atlas : Atlas} {group id : GroupId} {module owner other : ModuleId} {distance : Nat}

theorem ancestor_succ_eq_some_iff :
    atlas.ancestor group (distance + 1) = some id ↔
      ∃ lower, atlas.ancestor group distance = some lower ∧ atlas.IsParent id lower := by
  simp only [ancestor, Option.bind_eq_some_iff, IsParent]

theorem ancestor_succ_of_known {entity : Group} (reached : atlas.ancestor group distance = some id)
    (found : atlas.group? id = some entity) :
    atlas.ancestor group (distance + 1) = entity.parent := by
  rw [ancestor, reached, Option.bind_some, found, Option.bind_some]

/-- The way does not go on above its end. -/
theorem ancestor_eq_none_of_le {further : Nat} (ended : atlas.ancestor group distance = none)
    (above : distance ≤ further) : atlas.ancestor group further = none := by
  induction above with
  | refl => exact ended
  | step _ ih => rw [ancestor, ih, Option.bind_none]

/-- All groups on the way exist. -/
theorem Forested.knows_ancestor (forested : atlas.Forested) (known : atlas.Knows group)
    (reached : atlas.ancestor group distance = some id) : atlas.Knows id := by
  cases distance with
  | zero =>
    obtain rfl : group = id := Option.some.inj reached
    exact known
  | succ distance =>
    obtain ⟨lower, _, isParent⟩ := ancestor_succ_eq_some_iff.1 reached
    exact forested.parents isParent

theorem offersAt_iff (reached : atlas.ancestor group distance = some id) :
    atlas.OffersAt group module distance owner ↔ atlas.StandsFor owner id ∧ owner ≠ module := by
  simp [OffersAt, reached]

theorem OffersAt.unique (first : atlas.OffersAt group module distance owner)
    (second : atlas.OffersAt group module distance other) : owner = other := by
  obtain ⟨upper, reached, stands, _⟩ := first
  obtain ⟨standsOther, _⟩ := (offersAt_iff reached).1 second
  exact stands.unique standsOther

theorem FirstOffer.unique (first : atlas.FirstOffer group module owner)
    (second : atlas.FirstOffer group module other) : owner = other := by
  obtain ⟨distance, offers, noneNearer⟩ := first
  obtain ⟨distance', offers', noneNearer'⟩ := second
  rcases Nat.lt_trichotomy distance distance' with nearer | rfl | further
  · exact absurd offers (noneNearer' distance nearer owner)
  · exact offers.unique offers'
  · exact absurd offers' (noneNearer distance' further other)

theorem NoOfferBelow.succ (noneBelow : atlas.NoOfferBelow group module distance)
    (noneHere : ∀ other, ¬ atlas.OffersAt group module distance other) :
    atlas.NoOfferBelow group module (distance + 1) := by
  intro nearer inside
  rcases Nat.lt_succ_iff_lt_or_eq.1 inside with below | rfl
  · exact noneBelow nearer below
  · exact noneHere

/-- If nothing is offered up to the end of the way, then nothing is offered at all. -/
theorem NoOfferBelow.not_offersAt (noneBelow : atlas.NoOfferBelow group module distance)
    (ended : atlas.ancestor group distance = none) (place : Nat) (other : ModuleId) :
    ¬ atlas.OffersAt group module place other := by
  rcases Nat.lt_or_ge place distance with nearer | beyond
  · exact noneBelow place nearer other
  · rintro ⟨upper, reached, _⟩
    rw [ancestor_eq_none_of_le ended beyond] at reached
    cases reached

end Way

/-! ## What the search finds -/

def Search.Sound (atlas : Atlas) (group : GroupId) (module : ModuleId) (turns : Nat) :
    Search → Prop
  | looking next => atlas.ancestor group turns = next ∧ atlas.NoOfferBelow group module turns
  | returned none => ∀ distance owner, ¬ atlas.OffersAt group module distance owner
  | returned (some owner) => atlas.FirstOffer group module owner

section Finding

variable {atlas : Atlas} {group : GroupId} {module : ModuleId} {turns : Nat}

theorem Search.Sound.turn {state : Search} (sound : state.Sound atlas group module turns) :
    (state.turn atlas module).Sound atlas group module (turns + 1) := by
  match state, sound with
  | .returned none, nowhere => exact nowhere
  | .returned (some owner), first => exact first
  | .looking none, ⟨ended, noneBelow⟩ => exact noneBelow.not_offersAt ended
  | .looking (some id), ⟨reached, noneBelow⟩ =>
    cases found : atlas.group? id with
    | none =>
      -- a handle without group has neither a default module nor a parent
      have ended : atlas.ancestor group (turns + 1) = none := by
        rw [ancestor, reached, Option.bind_some, found, Option.bind_none]
      have noneHere (other : ModuleId) : ¬ atlas.OffersAt group module turns other := by
        intro offers
        obtain ⟨entity, known⟩ := ((offersAt_iff reached).1 offers).1.knows
        rw [found] at known
        cases known
      rw [Search.turn, found]
      exact (noneBelow.succ noneHere).not_offersAt ended
    | some entity =>
      rw [Search.turn, found]
      dsimp only
      cases offered : entity.defaultModule.filter fun owner => owner ≠ module with
      | some owner =>
        obtain ⟨isDefault, different⟩ := Option.filter_eq_some_iff.1 offered
        have stands : atlas.StandsFor owner id := ⟨entity, found, isDefault⟩
        have offers := (offersAt_iff reached).2 ⟨stands, of_decide_eq_true different⟩
        exact ⟨turns, offers, noneBelow⟩
      | none =>
        refine ⟨ancestor_succ_of_known reached found, noneBelow.succ ?_⟩
        intro other offers
        obtain ⟨stands, different⟩ := (offersAt_iff reached).1 offers
        rw [(standsFor_iff found).1 stands,
          Option.filter_some_pos (by simpa using different)] at offered
        cases offered

theorem Search.Sound.eq_some_iff {answer : Option ModuleId} {owner : ModuleId}
    (sound : (returned answer).Sound atlas group module turns) :
    answer = some owner ↔ atlas.FirstOffer group module owner := by
  match answer, sound with
  | none, nowhere =>
    refine iff_of_false nofun ?_
    rintro ⟨distance, offers, _⟩
    exact nowhere distance owner offers
  | some first, isFirst =>
    rw [Option.some.injEq]
    constructor
    · rintro rfl
      exact isFirst
    · exact fun other => FirstOffer.unique isFirst other

theorem Search.Sound.eq_none_iff {answer : Option ModuleId}
    (sound : (returned answer).Sound atlas group module turns) :
    answer = none ↔ ∀ distance owner, ¬ atlas.OffersAt group module distance owner := by
  match answer, sound with
  | none, nowhere => exact iff_of_true rfl nowhere
  | some first, ⟨distance, offers, _⟩ =>
    exact iff_of_false nofun fun nowhere => nowhere distance first offers

theorem sound_search (atlas : Atlas) (group : GroupId) (module : ModuleId) (turns : Nat) :
    (atlas.search group module turns).Sound atlas group module turns := by
  induction turns with
  | zero => exact ⟨rfl, fun nearer inside => absurd inside (Nat.not_lt_zero nearer)⟩
  | succ turns ih =>
    rw [search, Function.iterate_succ_apply']
    exact ih.turn

end Finding

/-! ## The end of the search -/

section Ending

variable {atlas : Atlas} {group : GroupId} {turns : Nat}

theorem iterate_turn_returned (atlas : Atlas) (module : ModuleId) (owner : Option ModuleId)
    (turns : Nat) : (Search.turn atlas module)^[turns] (.returned owner) = .returned owner :=
  Function.iterate_fixed rfl turns

/--
A turn for each group that is not younger and one more are enough, and then the answer is that of
any climb which is long enough.
-/
theorem search_eq_climb (wellFormed : atlas.WellFormed) (module : ModuleId) {steps : Nat}
    (enough : group.index < steps) (late : group.index + 2 ≤ turns) :
    atlas.search group module turns =
      .returned ((atlas.climb steps group).findSome? fun ancestor =>
        ancestor.defaultModule.filter fun owner => owner ≠ module) := by
  induction steps generalizing group turns with
  | zero => exact absurd enough (Nat.not_lt_zero _)
  | succ steps ih =>
    obtain ⟨turns, rfl⟩ : ∃ rest, turns = rest + 1 := Nat.exists_eq_add_one.2 (by omega)
    rw [search, Function.iterate_succ_apply, Search.turn]
    cases found : atlas.group? group with
    | none =>
      rw [climb, found]
      exact iterate_turn_returned atlas module none turns
    | some entity =>
      rw [findSome?_climb found]
      dsimp only
      cases entity.defaultModule.filter fun owner => owner ≠ module with
      | some owner => exact iterate_turn_returned atlas module (some owner) turns
      | none =>
        rw [Option.none_or]
        cases parentOf : entity.parent with
        | none =>
          obtain ⟨rest, rfl⟩ : ∃ rest, turns = rest + 1 := Nat.exists_eq_add_one.2 (by omega)
          rw [Function.iterate_succ_apply]
          exact iterate_turn_returned atlas module none rest
        | some parent =>
          have older := wellFormed.parents ⟨entity, found, parentOf⟩
          exact ih (by omega) (by omega)

theorem search_eq_ownerIn (wellFormed : atlas.WellFormed) (module : ModuleId)
    (known : atlas.Knows group) (late : group.index + 2 ≤ turns) :
    atlas.search group module turns = .returned (atlas.ownerIn group module) := by
  obtain ⟨entity, found⟩ := known
  have inside : group.index < atlas.groups.length := (List.getElem?_eq_some_iff.1 found).1
  exact search_eq_climb wellFormed module inside late

end Ending

/--
In every atlas that commands lead to, the search for the owner of a module from a known group comes
to an end, at the latest after a turn for each group that is not younger and one more.  Until then
it goes up parent by parent and only to groups that exist.  It returns the first default module on
the way that is not the module itself, and nothing if and only if there is none on the whole way.
-/
theorem owner_search_exact (settings : Settings) (commands : List Command) :
    let atlas := (empty settings).run commands
    ∀ group module, atlas.Knows group →
      (∀ turns, group.index + 2 ≤ turns →
        atlas.search group module turns = .returned (atlas.ownerIn group module)) ∧
      (∀ turns next, atlas.search group module turns = .looking (some next) →
        atlas.ancestor group turns = some next ∧ atlas.Knows next) ∧
      (∀ owner, atlas.ownerIn group module = some owner ↔ atlas.FirstOffer group module owner) ∧
      (atlas.ownerIn group module = none ↔
        ∀ distance owner, ¬ atlas.OffersAt group module distance owner) := by
  intro atlas group module known
  have wellFormed : atlas.WellFormed := wellFormed_reached settings commands
  have forested : atlas.Forested := forested_reached settings commands
  have ends {turns : Nat} (late : group.index + 2 ≤ turns) :
      atlas.search group module turns = .returned (atlas.ownerIn group module) :=
    search_eq_ownerIn wellFormed module known late
  have sound := sound_search atlas group module (group.index + 2)
  rw [ends (Nat.le_refl _)] at sound
  refine ⟨fun turns late => ends late, ?_, fun owner => sound.eq_some_iff, sound.eq_none_iff⟩
  intro turns next goesOn
  have looking := sound_search atlas group module turns
  rw [goesOn] at looking
  obtain ⟨reached, _⟩ := looking
  exact ⟨reached, forested.knows_ancestor known reached⟩

/-- A default module that is asked for itself is passed over, and so is a group without one. -/
theorem owner_search_exact_past_itself :
    let commands : List Command := [.createProject "p", .createGroup ⟨0⟩ none "outer",
      .createGroup ⟨0⟩ (some ⟨0⟩) "middle", .createGroup ⟨0⟩ (some ⟨1⟩) "inner",
      .createModule (some ⟨0⟩) "outer" .synthetic, .createModule (some ⟨2⟩) "inner" .synthetic]
    let atlas := (empty {}).run commands
    (atlas.Knows ⟨2⟩ ∧ atlas.StandsFor ⟨1⟩ ⟨2⟩ ∧
      (∀ turns, 4 ≤ turns → atlas.search ⟨2⟩ ⟨1⟩ turns = .returned (some ⟨0⟩)) ∧
      atlas.search ⟨2⟩ ⟨1⟩ 2 = .looking (some ⟨0⟩) ∧ atlas.Knows ⟨0⟩ ∧
      atlas.FirstOffer ⟨2⟩ ⟨1⟩ ⟨0⟩) ∧
    atlas.StandsFor ⟨0⟩ ⟨0⟩ ∧ ∀ distance owner, ¬ atlas.OffersAt ⟨0⟩ ⟨0⟩ distance owner := by
  intro commands atlas
  have inner : atlas.Knows ⟨2⟩ := ⟨_, rfl⟩
  have outer : atlas.Knows ⟨0⟩ := ⟨_, rfl⟩
  have found : atlas.ownerIn ⟨2⟩ ⟨1⟩ = some ⟨0⟩ := by decide
  have goesOn : atlas.search ⟨2⟩ ⟨1⟩ 2 = .looking (some ⟨0⟩) := by decide
  obtain ⟨ends, follows, finds, _⟩ := owner_search_exact {} commands ⟨2⟩ ⟨1⟩ inner
  obtain ⟨_, _, _, nothing⟩ := owner_search_exact {} commands ⟨0⟩ ⟨0⟩ outer
  refine ⟨⟨inner, ⟨_, rfl, rfl⟩, fun turns late => ?_, goesOn, (follows 2 ⟨0⟩ goesOn).2,
    (finds ⟨0⟩).1 found⟩, ⟨_, rfl, rfl⟩, nothing.1 (by decide)⟩
  exact found ▸ ends turns late

end Atlas

end ModuleAtlas
