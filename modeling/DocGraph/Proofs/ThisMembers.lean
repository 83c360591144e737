import DocGraph.Proofs.CarriedDrafts
import DocGraph.Proofs.HandingUp

/-!
# Where the members of an object end up

An assignment to `this.x` in a function of a class becomes a member of that class, however deep the
class stands in the functions of other classes. Its draft is found directly below the draft of the
class or nowhere, since another member may stand for its name. Drafts are told apart by their
places: the sites of a file stand at different ones, and merging drops drafts but moves none that is
neither a function nor an accessor. So it is enough to follow the two places through all bodies
around the class.

What a class gets can still be lost with the class. When a documented assignment is handed up, an
undocumented method of the same name gives way to it, with everything that is declared inside of the
method. A signature gives way to the implementation in the same way. The draft of a class is there
if nothing of this happens around it.

The proof keeps the two questions apart. That there is no draft elsewhere is an invariant of forests
of drafts, which every step of drafting keeps. That there is a draft is shown along the way down to
the class, where every step says that nothing on it is replaced.
-/

namespace DocGraph.Draft

variable {target : Tree Site} {inner scope : Scope} {site : Site}
  {body forest : List (Tree Site)} {assignment : Tree Site}
  {home key : SourceOrder} {owner tree : Tree Draft} {drafts other : List (Tree Draft)}

/-- From declarations that stand in a scope the way leads to a declaration that stands in an inner
scope. It records the scope in which each declaration stands, since a draft depends on it. -/
inductive Reaches (target : Tree Site) (inner : Scope) : Scope → List (Tree Site) → Prop where
  | here {forest : List (Tree Site)} (listed : target ∈ forest) : Reaches target inner inner forest
  | inside {scope : Scope} {outer : Site} {nested forest : List (Tree Site)}
      (listed : .node outer nested ∈ forest)
      (deeper : Reaches target inner (outer.childScope scope) nested) :
      Reaches target inner scope forest

/-- In a forest, what stands at one place is one tree, and what stands at a second place stands
directly below this tree. The invariant does not say that the tree is there. A forest without any of
the two places has it. -/
structure Confined (home key : SourceOrder) (owner : Tree Draft) (forest : List (Tree Draft)) :
    Prop where
  only : ∀ tree : Tree Draft, tree.Occurs forest → tree.value.entity.order = home → tree = owner
  below : ∀ tree : Tree Draft, tree.Occurs forest → ∀ child ∈ tree.children,
    child.value.entity.order = key → tree = owner
  top : ∀ tree ∈ forest, tree.value.entity.order ≠ key

section Confinement

/-- The place of a draft that stands in a forest is counted. Places are counted at any depth. -/
theorem order_mem_census (occurs : tree.Occurs drafts) :
    tree.value.entity.order ∈ census Entity.order drafts :=
  Multiset.mem_coe.mpr
    (List.mem_map_of_mem (f := fun draft : Draft => draft.entity.order) occurs.value_mem)

/-- Nothing is to be confined when both places are elsewhere. It is the case of all declarations
that are not on the way. -/
theorem confined_of_absent
    (free : ∀ order ∈ census Entity.order drafts, order ≠ home ∧ order ≠ key) :
    Confined home key owner drafts where
  only _ occurs same := absurd same (free _ (order_mem_census occurs)).1
  below _ occurs _ listed same := absurd same (free _ (order_mem_census (occurs.child listed))).2
  top _ listed := (free _ (order_mem_census (Tree.occurs_of_mem listed))).2

/-- What is confined in a forest is confined among some of its trees. Dropping drafts is harmless,
and merging does little else. -/
theorem Confined.of_subset (confined : Confined home key owner drafts) (subset : other ⊆ drafts) :
    Confined home key owner other where
  only tree occurs := confined.only tree (occurs.mono subset)
  below tree occurs := confined.below tree (occurs.mono subset)
  top tree listed := confined.top tree (subset listed)

/-- What is confined in two forests is confined in both of them together. There is no condition on
the two lists: a tree of both stands in one of them. -/
theorem Confined.append (left : Confined home key owner drafts)
    (right : Confined home key owner other) : Confined home key owner (drafts ++ other) := by
  have either {tree : Tree Draft} (occurs : tree.Occurs (drafts ++ other)) :
      tree.Occurs drafts ∨ tree.Occurs other := by
    obtain ⟨root, listed, below⟩ := Tree.occurs_iff.mp occurs
    rcases List.mem_append.mp listed with first | second
    · exact .inl (Tree.occurs_iff.mpr ⟨root, first, below⟩)
    · exact .inr (Tree.occurs_iff.mpr ⟨root, second, below⟩)
  constructor
  case only => exact fun tree occurs => (either occurs).elim (left.only tree) (right.only tree)
  case below => exact fun tree occurs => (either occurs).elim (left.below tree) (right.below tree)
  case top => exact List.forall_mem_append.mpr ⟨left.top, right.top⟩

/-- Merging leaves confined what it cannot merge. The premise is for the class itself, which must
not take in another draft. -/
theorem Confined.merged (confined : Confined home key owner drafts)
    (single : ¬Mergeable owner) : Confined home key owner (mergeMembers drafts) := by
  constructor
  case only =>
    intro tree occurs same
    rcases occurs_merge_members occurs with before | ⟨_, _, _, one⟩
    · exact confined.only tree before same
    · obtain ⟨part, listed, mergeable, place⟩ := one.exists_part_of_order
      exact absurd (confined.only part (Tree.occurs_of_mem listed) (place.symm.trans same) ▸
        mergeable) single
  case below =>
    intro tree occurs child nested same
    rcases occurs_merge_members occurs with before | ⟨_, _, _, one⟩
    · exact confined.below tree before child nested same
    · obtain ⟨part, listed, mergeable, held⟩ := one.exists_part_of_child nested
      exact absurd (confined.below part (Tree.occurs_of_mem listed) child held same ▸
        mergeable) single
  case top =>
    intro tree listed
    rcases exists_becomes_one listed with before | ⟨_, _, _, one⟩
    · exact confined.top tree before
    · obtain ⟨part, present, _, place⟩ := one.exists_part_of_order
      exact place ▸ confined.top part present

/-- What is confined below a draft at another place is confined. It is the step from a body to the
declaration around it. -/
theorem Confined.node {draft : Draft} (confined : Confined home key owner drafts)
    (notHome : draft.entity.order ≠ home) (notKey : draft.entity.order ≠ key) :
    Confined home key owner [.node draft drafts] := by
  constructor
  case only =>
    intro tree occurs same
    rcases Tree.occurs_singleton_iff.mp occurs with rfl | deeper
    · exact absurd same notHome
    · exact confined.only tree deeper same
  case below =>
    intro tree occurs child nested same
    rcases Tree.occurs_singleton_iff.mp occurs with rfl | deeper
    · exact absurd same (confined.top child nested)
    · exact confined.below tree deeper child nested same
  case top => exact List.forall_mem_singleton.mpr notKey

/-- All drafts that are contributed to a body. Confinement is about both parts, since what is handed
up is placed further out. -/
def Contribution.all (contribution : Contribution) : List (Tree Draft) :=
  contribution.drafts ++ contribution.hoisted

/-- Enclosing what a declaration at another place contains leaves it confined. A body is merged,
takes in what is handed up to it, and is put below its declaration; each of these keeps
confinement. -/
theorem Confined.enclosed {nested : Contribution} (confined : Confined home key owner nested.all)
    (single : ¬Mergeable owner) (notHome : site.order ≠ home) (notKey : site.order ≠ key) :
    Confined home key owner (enclose site scope nested).all := by
  have hoisted : Confined home key owner nested.hoisted :=
    confined.of_subset (List.subset_append_right _ _)
  have members : Confined home key owner (mergeMembers nested.drafts) :=
    (confined.of_subset (List.subset_append_left _ _)).merged single
  have adopted : Confined home key owner (adoptAll (mergeMembers nested.drafts) nested.hoisted) :=
    (members.append hoisted).of_subset fun tree listed =>
      List.mem_append.mpr (mem_of_mem_adopt_all listed)
  have none : Confined home key owner [] := hoisted.of_subset (List.nil_subset _)
  have around {children : List (Tree Draft)} (inside : Confined home key owner children) :
      Confined home key owner [.node (site.draft scope) children] :=
    inside.node ((Site.order_draft site scope).symm ▸ notHome)
      ((Site.order_draft site scope).symm ▸ notKey)
  unfold Draft.enclose Contribution.all
  dsimp only
  split <;> split
  · exact none.append (none.append (around adopted))
  · exact none.append (hoisted.append (around members))
  · exact (around adopted).append none
  · exact (around members).append hoisted

end Confinement

section Places

/-- The places of several declarations are those of the first one and those of the others. -/
theorem site_census_cons (first : Tree Site) (rest : List (Tree Site)) :
    siteCensus Site.order (first :: rest) =
      siteCensus Site.order [first] + siteCensus Site.order rest := by
  simp [siteCensus, Tree.forestPreorder]

/-- A declaration stands at its place, above those that are nested in it. -/
@[simp]
theorem site_census_node (site : Site) (body : List (Tree Site)) :
    siteCensus Site.order [.node site body] = site.order ::ₘ siteCensus Site.order body := by
  simp [siteCensus, Tree.forestPreorder, Tree.preorder]

/-- What several declarations contribute stands at their places. Nothing is counted twice, so what
has a place of its own has one draft. -/
theorem census_all_of_sites_le (scope : Scope) (forest : List (Tree Site)) :
    census Entity.order (ofSites scope forest).all ≤ siteCensus Site.order forest := by
  rw [Contribution.all, census_append]
  exact census_of_sites_le order_inherited Site.order_draft scope forest

/-- What one declaration contributes stands at its place and those of what is nested in it. -/
theorem census_all_of_site_le (scope : Scope) (tree : Tree Site) :
    census Entity.order (ofSite scope tree).all ≤ siteCensus Site.order [tree] := by
  rw [Contribution.all, census_append]
  exact census_of_site_le order_inherited Site.order_draft scope tree

/-- The places of a declaration are among those of the declarations beside it. -/
theorem site_census_le_of_mem {first : Tree Site} (listed : first ∈ forest) :
    siteCensus Site.order [first] ≤ siteCensus Site.order forest := by
  induction listed with
  | head rest =>
    rw [site_census_cons _ rest]
    exact Multiset.le_add_right _ _
  | tail other _ inductionHypothesis =>
    rw [site_census_cons other]
    exact inductionHypothesis.trans (Multiset.le_add_left _ _)

/-- The places of a declaration are among those of the declarations around it. -/
theorem Reaches.site_census_le (reached : Reaches target inner scope forest) :
    siteCensus Site.order [target] ≤ siteCensus Site.order forest := by
  induction reached with
  | here listed => exact site_census_le_of_mem listed
  | inside listed _ inductionHypothesis =>
    refine inductionHypothesis.trans (le_trans ?_ (site_census_le_of_mem listed))
    rw [site_census_node]
    exact Multiset.le_cons_self _ _

/-- An assignment that is handed up stands at one of the places of the class body. It stands in the
body of a member, one level further down. -/
theorem order_of_mem_handed_up (handed : assignment ∈ handedUp body) :
    assignment.value.order ∈ siteCensus Site.order body := by
  obtain ⟨_, member, nested, listed, _, present⟩ := mem_handed_up_iff.mp handed
  have reached : Reaches assignment (member.childScope .classBody) .classBody body :=
    .inside listed (.here present)
  refine Multiset.mem_of_le reached.site_census_le ?_
  obtain ⟨site, below⟩ := assignment
  rw [site_census_node]
  exact Multiset.mem_cons_self _ _

/-- The place of a draft of a forest in which all places differ is found nowhere below its drafts.
Otherwise the place would be counted twice. -/
theorem root_alone (distinct : (census Entity.order drafts).Nodup) (listed : tree ∈ drafts)
    {root : Tree Draft} (present : root ∈ drafts) :
    tree.value.entity.order ∉ census Entity.order root.children := by
  have counted (tree : Tree Draft) :
      tree.value.entity.order ∈ treeCensus Entity.order tree := by
    rw [tree_census_eq]
    exact Multiset.mem_cons_self _ _
  induction drafts with
  | nil => cases listed
  | cons head rest inductionHypothesis =>
    rw [census_cons, Multiset.nodup_add] at distinct
    obtain ⟨headDistinct, restDistinct, apart⟩ := distinct
    intro again
    have below : tree.value.entity.order ∈ treeCensus Entity.order root :=
      Multiset.mem_of_le (census_children_le root) again
    rcases List.mem_cons.mp listed with rfl | later <;>
      rcases List.mem_cons.mp present with rfl | further
    · rw [tree_census_eq, Multiset.nodup_cons] at headDistinct
      exact headDistinct.1 again
    · exact Multiset.disjoint_left.mp apart (counted _)
        (Multiset.mem_of_le (tree_census_le_census further) below)
    · exact Multiset.disjoint_left.mp apart below
        (Multiset.mem_of_le (tree_census_le_census later) (counted _))
    · exact inductionHypothesis restDistinct later further again

/-- A class is neither a function nor an accessor. A tag can change the kind of a draft, but not
into one of these. -/
theorem not_mergeable_class_tree (opens : site.OpensClass) (scope : Scope)
    (body : List (Tree Site)) : ¬Mergeable (classTree scope site body) := by
  have kind : (classTree scope site body).value.entity.kind = site.kind :=
    Site.kind_draft site scope
  have tagged (doc : Option DocComment) : site.declaration.entityKind doc ≠ .function ∧
      site.declaration.entityKind doc ≠ .accessor := by
    rcases opens with same | same <;>
      simp only [Declaration.entityKind, Declaration.shapeKind, same]
    all_goals split_ifs <;> simp_all
  rw [Mergeable, kind]
  exact not_or.mpr (tagged site.doc)

/-- The draft of a class is the only one at its place, and an assignment that is handed up to it is
found directly below it, if at all. It is where the invariant begins, at the class. -/
theorem confined_class_tree (distinct : (siteCensus Site.order [.node site body]).Nodup)
    (handed : assignment ∈ handedUp body) (scope : Scope) :
    Confined site.order assignment.value.order (classTree scope site body)
      [classTree scope site body] := by
  rw [site_census_node, Multiset.nodup_cons] at distinct
  obtain ⟨notBelow, distinct⟩ := distinct
  have members : census Entity.order (ownMembers body ++ (handedUp body).map handedTree) ≤
      siteCensus Site.order body := by
    refine le_trans ?_ (census_all_of_sites_le .classBody body)
    rw [Contribution.all, hoisted_of_sites_class_body, census_append, census_append]
    exact add_le_add (census_merge_members_le order_inherited _) (le_refl _)
  have among : handedTree assignment ∈ ownMembers body ++ (handedUp body).map handedTree :=
    List.mem_append_right _ (List.mem_map_of_mem handed)
  have place : (handedTree assignment).value.entity.order = assignment.value.order :=
    Site.order_draft _ _
  -- What stands below the class stands below one of its own members or of those handed up.
  have below {tree : Tree Draft} (occurs : tree.Occurs (classTree scope site body).children) :
      tree.Occurs (ownMembers body ++ (handedUp body).map handedTree) :=
    occurs.mono fun member listed => List.mem_append.mpr (mem_of_mem_adopt_all listed)
  constructor
  case only =>
    intro tree occurs same
    rcases Tree.occurs_singleton_iff.mp occurs with here | deeper
    · exact here
    · exact absurd (Multiset.mem_of_le members (order_mem_census (below deeper)))
        (same.symm ▸ notBelow)
  case below =>
    intro tree occurs child nested same
    rcases Tree.occurs_singleton_iff.mp occurs with here | deeper
    · exact here
    · obtain ⟨root, listed, here⟩ := Tree.occurs_iff.mp (below deeper)
      have inside : child.Occurs root.children := by
        rcases here with rfl | further
        · exact Tree.occurs_of_mem nested
        · exact further.child nested
      refine absurd (order_mem_census inside) ?_
      rw [same, ← place]
      exact root_alone (Multiset.nodup_of_le members distinct) among listed
  case top =>
    refine List.forall_mem_singleton.mpr fun same => notBelow ?_
    rw [← Site.order_draft site scope]
    exact same ▸ order_of_mem_handed_up handed

end Places

section Descent

/-- What is confined to one of several declarations, at places of its own, is confined to all of
them. The other declarations have neither of the places, because all places differ. -/
theorem confined_of_sites_of_mem {first : Tree Site} (listed : first ∈ forest)
    (distinct : (siteCensus Site.order forest).Nodup)
    (homeInside : home ∈ siteCensus Site.order [first])
    (keyInside : key ∈ siteCensus Site.order [first])
    (confined : Confined home key owner (ofSite scope first).all) :
    Confined home key owner (ofSites scope forest).all := by
  have joined (tree : Tree Site) (rest : List (Tree Site)) :
      (ofSites scope (tree :: rest)).all ⊆ (ofSite scope tree).all ++ (ofSites scope rest).all := by
    intro member present
    simp only [ofSites, Contribution.append, Contribution.all, List.mem_append] at present ⊢
    tauto
  induction listed with
  | head rest =>
    rw [site_census_cons, Multiset.nodup_add] at distinct
    have others : Confined home key owner (ofSites scope rest).all := by
      apply confined_of_absent
      intro order present
      have later := Multiset.mem_of_le (census_all_of_sites_le scope rest) present
      exact ⟨fun same => Multiset.disjoint_left.mp distinct.2.2 homeInside (same ▸ later),
        fun same => Multiset.disjoint_left.mp distinct.2.2 keyInside (same ▸ later)⟩
    exact (confined.append others).of_subset (joined _ rest)
  | @tail other rest later inductionHypothesis =>
    rw [site_census_cons, Multiset.nodup_add] at distinct
    have inside := site_census_le_of_mem later
    have before : Confined home key owner (ofSite scope other).all := by
      apply confined_of_absent
      intro order present
      have earlier := Multiset.mem_of_le (census_all_of_site_le scope other) present
      have apart (same : order ∈ siteCensus Site.order rest) : False :=
        Multiset.disjoint_left.mp distinct.2.2 earlier same
      exact ⟨fun same => apart (same ▸ Multiset.mem_of_le inside homeInside),
        fun same => apart (same ▸ Multiset.mem_of_le inside keyInside)⟩
    exact (before.append (inductionHypothesis distinct.2.1)).of_subset (joined _ rest)

/-- Wherever a class stands, its draft is the only one at its place, and an assignment that is
handed up to it is found directly below it, if at all.

Proof by induction on the way to the class. At its end stands the class with its own draft. In each
step the declarations beside are without the two places, and the one around encloses what is
confined. -/
theorem confined_of_reaches (reached : Reaches (.node site body) inner scope forest)
    (opens : site.OpensClass) (handed : assignment ∈ handedUp body)
    (distinct : (siteCensus Site.order forest).Nodup) :
    Confined site.order assignment.value.order (classTree inner site body)
      (ofSites scope forest).all := by
  have homeInside : site.order ∈ siteCensus Site.order [.node site body] := by
    rw [site_census_node]
    exact Multiset.mem_cons_self _ _
  have keyInside : assignment.value.order ∈ siteCensus Site.order [.node site body] := by
    rw [site_census_node]
    exact Multiset.mem_cons_of_mem (order_of_mem_handed_up handed)
  induction reached with
  | @here forest listed =>
    refine confined_of_sites_of_mem listed distinct homeInside keyInside ?_
    rw [of_site_of_opens_class opens]
    apply confined_class_tree _ handed
    exact Multiset.nodup_of_le (site_census_le_of_mem listed) distinct
  | @inside scope outer nested forest listed deeper inductionHypothesis =>
    have own := Multiset.nodup_of_le (site_census_le_of_mem listed) distinct
    rw [site_census_node, Multiset.nodup_cons] at own
    have homeBelow := Multiset.mem_of_le deeper.site_census_le homeInside
    have keyBelow := Multiset.mem_of_le deeper.site_census_le keyInside
    refine confined_of_sites_of_mem listed distinct ?_ ?_ ?_
    · rw [site_census_node]
      exact Multiset.mem_cons_of_mem homeBelow
    · rw [site_census_node]
      exact Multiset.mem_cons_of_mem keyBelow
    · rw [ofSite]
      exact (inductionHypothesis own.2).enclosed (not_mergeable_class_tree opens inner body)
        (fun same => own.1 (same ▸ homeBelow)) fun same => own.1 (same ▸ keyBelow)

end Descent

section Naming

/-- No tag makes a draft documented or undocumented. So whether a member is documented depends on
its comment alone. -/
theorem documented_apply_tag (draft : Draft) (tag : Tag) :
    (draft.applyTag tag).entity.documented = draft.entity.documented := by
  unfold applyTag
  split <;> try rfl
  all_goals split <;> try rfl
  all_goals
    unfold addSupertype modifyEntity
    dsimp only
    split <;> rfl

/-- A draft is documented when a comment documents the declaration. -/
theorem documented_draft (site : Site) (scope : Scope) :
    (site.draft scope).entity.documented = site.doc.isSome := by
  have completed (entity : Entity) :
      (site.completeEntity entity).documented = entity.documented := by
    unfold Site.completeEntity
    split
    · rfl
    · rfl
    · split <;> rfl
  refine (completed _).trans ?_
  cases site.doc with
  | none => rfl
  | some doc =>
    exact foldl_apply_tag_eq (fun draft => draft.entity.documented) documented_apply_tag doc.tags _

/-- An assignment that is handed up keeps its name. -/
@[simp]
theorem name_handed_tree (assignment : Tree Site) :
    (handedTree assignment).value.entity.name = assignment.value.name :=
  Site.name_draft _ _

/-- An assignment that is handed up is an instance member. -/
theorem binding_handed_tree (handed : assignment ∈ handedUp body) :
    (handedTree assignment).value.binding = .onInstance :=
  if_pos (mem_handed_up_iff.mp handed).1

/-- An assignment that is handed up bears its name in the class. The binding is the same for all of
them, so the name decides. -/
theorem bears_handed_tree (handed : assignment ∈ handedUp body) (name : String) :
    bears name .onInstance (handedTree assignment) = decide (assignment.value.name = name) := by
  simp only [bears, binding_handed_tree handed, name_handed_tree, decide_true, Bool.and_true]

/-- The members that bear a name in a class: the first one of its own, and those handed up. What was
handed up comes later, and may replace the one before. -/
def candidates (body : List (Tree Site)) (name : String) : List (Tree Draft) :=
  ((ownMembers body).find? (bears name .onInstance)).toList ++
    ((handedUp body).map handedTree).filter (bears name .onInstance)

/-- What a name stands for in a class. One lemma describes what taking in does under a name, and
this is the case of a class. -/
theorem find?_class_tree (scope : Scope) (site : Site) (body : List (Tree Site)) (name : String) :
    (classTree scope site body).children.find? (bears name .onInstance) =
      standing (candidates body name) :=
  find?_adopt_all name .onInstance _ _

/-- The name of an assignment that is handed up stands for a member of the class. It is documented
when the member that the class has under this name is, or any assignment of the name that is handed
up.

Proof: the assignment is among the candidates, so something stands for the name. What stands is
documented when any candidate is, since a documented one takes the place of one that is not. -/
theorem exists_find?_class_tree (handed : assignment ∈ handedUp body) (scope : Scope)
    (site : Site) :
    ∃ child, (classTree scope site body).children.find?
        (bears assignment.value.name .onInstance) = some child ∧
      (child.value.entity.documented = true ↔
        (∃ matched, (ownMembers body).find? (bears assignment.value.name .onInstance) =
            some matched ∧ matched.value.entity.documented = true) ∨
          ∃ other ∈ handedUp body, other.value.name = assignment.value.name ∧
            other.value.doc.isSome = true) := by
  rw [find?_class_tree]
  have among : handedTree assignment ∈ candidates body assignment.value.name := by
    apply List.mem_append_right
    rw [List.mem_filter, bears_handed_tree handed, decide_eq_true_eq]
    exact ⟨List.mem_map_of_mem handed, rfl⟩
  obtain ⟨child, stands⟩ := exists_standing among
  refine ⟨child, stands, (documented_of_standing stands).trans ?_⟩
  constructor
  · rintro ⟨candidate, listed, documented⟩
    rcases List.mem_append.mp listed with own | later
    · exact .inl ⟨candidate, Option.mem_toList.mp own, documented⟩
    · obtain ⟨present, bearer⟩ := List.mem_filter.mp later
      obtain ⟨other, given, rfl⟩ := List.mem_map.mp present
      rw [bears_handed_tree given, decide_eq_true_eq] at bearer
      exact .inr ⟨other, given, bearer, documented_draft other.value _ ▸ documented⟩
  · rintro (⟨matched, found, documented⟩ | ⟨other, given, same, documented⟩)
    · exact ⟨matched, List.mem_append_left _ (Option.mem_toList.mpr found), documented⟩
    · refine ⟨handedTree other, List.mem_append_right _ (List.mem_filter.mpr ⟨?_, ?_⟩), ?_⟩
      · exact List.mem_map_of_mem given
      · rw [bears_handed_tree given, decide_eq_true same]
      · exact (documented_draft other.value _).trans documented

end Naming

section Survival

/-- A declaration is not replaced in its body. If this is the body of a class, the declaration is
documented, or it is no instance member for which a documented assignment is handed up. Only the
body of a class takes in what is handed up to it, so elsewhere there is nothing to ask. -/
def KeepsPlace (scope : Scope) (body : List (Tree Site)) (site : Site) : Prop :=
  scope = .classBody → site.doc.isSome = true ∨ ∀ assignment ∈ handedUp body,
    assignment.value.name = site.name → (site.draft scope).binding = .onInstance →
      assignment.value.doc = none

/-- The way to a declaration leads through declarations that keep their place and have a body, and
through assignments that are handed up and stand for their name in the class. It follows the way of
`Reaches` and asks of every declaration on it that its draft stays. The third case is for a class
that stands in a function which is itself assigned to a member. -/
inductive Undisturbed (target : Tree Site) (inner : Scope) : Scope → List (Tree Site) → Prop where
  | here {forest : List (Tree Site)} (listed : target ∈ forest)
      (keeps : KeepsPlace inner forest target.value) : Undisturbed target inner inner forest
  | inside {scope : Scope} {outer : Site} {nested forest : List (Tree Site)}
      (listed : .node outer nested ∈ forest) (declared : outer.isHoisted scope = false)
      (body : outer.isSignature = false) (keeps : KeepsPlace scope forest outer)
      (deeper : Undisturbed target inner (outer.childScope scope) nested) :
      Undisturbed target inner scope forest
  | handed {assignment : Tree Site} {forest : List (Tree Site)}
      (listed : assignment ∈ handedUp forest)
      (stands : standing (candidates forest assignment.value.name) = some (handedTree assignment))
      (deeper : Undisturbed target inner (assignment.value.childScope (.functionBody true))
        assignment.children) : Undisturbed target inner .classBody forest

/-- The drafts in a body, after those that are handed up were taken in. It is what `enclose` puts
below the draft of a declaration. -/
def membersOf (scope : Scope) (forest : List (Tree Site)) : List (Tree Draft) :=
  if scope = .classBody then
    adoptAll (mergeMembers (ofSites scope forest).drafts) (ofSites scope forest).hoisted
  else mergeMembers (ofSites scope forest).drafts

/-- A declaration that is not handed up contributes its draft with the drafts of its body. A
signature is excluded by the way it is used, since it contributes no body. -/
theorem drafts_of_site (declared : site.isHoisted scope = false) (body : List (Tree Site)) :
    (ofSite scope (.node site body)).drafts =
      [.node (site.draft scope) (membersOf (site.childScope scope) body)] := by
  rw [ofSite, enclose, declared]
  rfl

/-- What each declaration contributes is contributed by all of them. -/
theorem drafts_of_site_subset {first : Tree Site} (listed : first ∈ forest) :
    (ofSite scope first).drafts ⊆ (ofSites scope forest).drafts := by
  induction listed with
  | head rest => exact List.subset_append_left _ _
  | tail other _ inductionHypothesis =>
    exact List.subset_append_of_subset_right _ inductionHypothesis

/-- A merged draft that carries the draft of a declaration stays when the declaration keeps its
place. In a class it is enough that no documented assignment of the name is handed up. -/
theorem mem_members_of_of_keeps_place {draft : Tree Draft}
    (merged : draft ∈ mergeMembers (ofSites scope forest).drafts) {children : List (Tree Draft)}
    (carries : Carries draft (.node (site.draft scope) children))
    (keeps : KeepsPlace scope forest site) : draft ∈ membersOf scope forest := by
  unfold membersOf
  split
  · next inClass =>
    subst inClass
    apply mem_adopt_all merged
    rcases keeps rfl with documented | others
    · exact .inl (carries.documented ((documented_draft site _).trans documented))
    · right
      intro member listed bearer
      rw [hoisted_of_sites_class_body] at listed
      obtain ⟨assignment, handed, rfl⟩ := List.mem_map.mp listed
      simp only [bears, Bool.and_eq_true, decide_eq_true_eq, name_handed_tree,
        binding_handed_tree handed] at bearer
      have name : draft.value.entity.name = site.name :=
        carries.name.trans (Site.name_draft site _)
      have free := others assignment handed (bearer.1.trans name)
        (carries.binding.symm.trans bearer.2.symm)
      exact (documented_draft assignment.value _).trans (by rw [free, Option.isSome_none])
  · exact merged

/-- The draft of a class is in the outermost body when nothing on the way is replaced.

Proof by induction on the way. The draft of a declaration that keeps its place is merged at most
with others of its name, and then its members stand in the merged one. What is handed up stands for
its name in the class. -/
theorem occurs_members_of (opens : site.OpensClass)
    (undisturbed : Undisturbed (.node site body) inner scope forest) :
    (classTree inner site body).Occurs (membersOf scope forest) := by
  induction undisturbed with
  | @here forest listed keeps =>
    have given : classTree inner site body ∈ (ofSites inner forest).drafts := by
      apply drafts_of_site_subset listed
      rw [of_site_of_opens_class opens]
      exact List.mem_singleton_self _
    have merged :=
      mem_merge_members_of_not_mergeable given (not_mergeable_class_tree opens inner body)
    exact Tree.occurs_of_mem (mem_members_of_of_keeps_place merged (.refl _) keeps)
  | @inside scope outer nested forest listed declared hasBody keeps _ inductionHypothesis =>
    have given : .node (outer.draft scope) (membersOf (outer.childScope scope) nested) ∈
        (ofSites scope forest).drafts := by
      apply drafts_of_site_subset listed
      rw [drafts_of_site declared]
      exact List.mem_singleton_self _
    obtain ⟨merged, among, carries⟩ := exists_carries given hasBody
    have stays := mem_members_of_of_keeps_place among carries keeps
    exact Tree.occurs_iff.mpr
      ⟨merged, stays, .inr (inductionHypothesis.mono carries.children)⟩
  | @handed assignment forest listed stands _ inductionHypothesis =>
    have found : (membersOf .classBody forest).find? (bears assignment.value.name .onInstance) =
        some (handedTree assignment) := by
      rw [membersOf, if_pos rfl, hoisted_of_sites_class_body, find?_adopt_all]
      exact stands
    have other : assignment.value.childScope (.functionBody true) ≠ .classBody :=
      mt Site.child_scope_eq_class_body_iff.mp
        (Site.not_opens_class_of_is_this_member (mem_handed_up_iff.mp listed).1)
    rw [membersOf, if_neg other] at inductionHypothesis
    exact Tree.occurs_iff.mpr
      ⟨_, List.mem_of_find?_eq_some found, .inr inductionHypothesis⟩

end Survival

section Files

variable {file : SourceFile} {fileIndex : UInt32} {config : Config}

/-- In the drafts of a file, the draft of a class is the only one at its place, and an assignment
that is handed up to it is found directly below it, if at all. The drafts of defining comments stand
at other places, so they do not matter. -/
theorem confined_normalize (counted : file.placeCount config < UInt32.size)
    (reached : Reaches (.node site body) inner .topLevel (file.sites fileIndex config))
    (opens : site.OpensClass) (handed : assignment ∈ handedUp body) :
    Confined site.order assignment.value.order (classTree inner site body)
      (file.normalize fileIndex config).drafts := by
  have distinct := Multiset.coe_nodup.mpr (SourceFile.places_nodup counted fileIndex)
  rw [← SourceFile.site_census_add_census_virtual_drafts, Multiset.nodup_add] at distinct
  obtain ⟨sites, _, apart⟩ := distinct
  have declared : Confined site.order assignment.value.order (classTree inner site body)
      (declared (file.sites fileIndex config)) :=
    ((confined_of_reaches reached opens handed sites).of_subset
      (List.subset_append_left _ _)).merged (not_mergeable_class_tree opens inner body)
  refine declared.append (confined_of_absent fun order virtual => ?_)
  have elsewhere {other : SourceOrder} (inside : other ∈ siteCensus Site.order [.node site body]) :
      order ≠ other := by
    intro same
    exact Multiset.disjoint_left.mp apart (Multiset.mem_of_le reached.site_census_le inside)
      (same ▸ virtual)
  rw [site_census_node] at elsewhere
  exact ⟨elsewhere (Multiset.mem_cons_self _ _),
    elsewhere (Multiset.mem_cons_of_mem (order_of_mem_handed_up handed))⟩

/-- **Members of an object go to its class.** Let a class or an interface stand anywhere among the
declarations of a file, and let an assignment to a member be handed up to it. Then the name of the
assignment stands for an instance member of the class, which is documented exactly if the member
that the class declares under this name is, or an assignment of the name that is handed up. The
draft of the class is the only one at the place of the class. The assignment has no draft but
directly below this one. Nothing of this is lost unless a declaration around the class, or the class
itself, gives way to another draft.

The first premise is that places are counted without overflow, so that they differ.

Proof: what stands for the name is found by looking at the candidates. The rest is confinement, for
the drafts of the whole file. If nothing on the way is disturbed the draft of the class is in the
outermost body, which is the file. -/
theorem this_members_of_class (counted : file.placeCount config < UInt32.size)
    (reached : Reaches (.node site body) inner .topLevel (file.sites fileIndex config))
    (opens : site.OpensClass) (handed : assignment ∈ handedUp body) :
    (∃ child, (classTree inner site body).children.find?
        (bears assignment.value.name .onInstance) = some child ∧
      (child.value.entity.documented = true ↔
        (∃ matched, (ownMembers body).find? (bears assignment.value.name .onInstance) =
            some matched ∧ matched.value.entity.documented = true) ∨
          ∃ other ∈ handedUp body, other.value.name = assignment.value.name ∧
            other.value.doc.isSome = true)) ∧
    (∀ tree : Tree Draft, tree.Occurs (file.normalize fileIndex config).drafts →
      (tree.value.entity.order = site.order → tree = classTree inner site body) ∧
      ∀ child ∈ tree.children, child.value.entity.order = assignment.value.order →
        tree = classTree inner site body) ∧
    (∀ tree ∈ (file.normalize fileIndex config).drafts,
      tree.value.entity.order ≠ assignment.value.order) ∧
    (Undisturbed (.node site body) inner .topLevel (file.sites fileIndex config) →
      (classTree inner site body).Occurs (file.normalize fileIndex config).drafts) := by
  have confined := confined_normalize counted reached opens handed
  refine ⟨exists_find?_class_tree handed inner site, ?places, confined.top, ?present⟩
  case places =>
    exact fun tree occurs => ⟨confined.only tree occurs, confined.below tree occurs⟩
  case present =>
    intro undisturbed
    exact (occurs_members_of opens undisturbed).mono (List.subset_append_left _ _)

end Files

section Panels

/-- A declaration of the file, at its place. Only classes and methods are written with a name of
their own; for the others the name is made up from what they are. -/
def panelSite (sequence : UInt32) (name : String) (kind : DeclKind) (first last : UInt32)
    (target : Option String) (doc : Option DocComment) : Site :=
  let named := if kind = .classDecl ∨ kind = .method then some name else none
  { name := name
    declaration := { kind := kind, name := named, span := ⟨first, last, 0, 0⟩, target := target }
    location := ⟨"panel.js", first⟩
    order := ⟨0, sequence⟩
    doc := doc }

/-- An assignment to a member of the inner class. -/
def cellsTree : Tree Site :=
  .node (panelSite 4 "cells" .assignment 5 5 (some "this.cells") none) []

/-- The inner class. -/
def rowSite : Site := panelSite 2 "Row" .classDecl 3 7 none none

/-- The constructor of the inner class. -/
def rowBody : List (Tree Site) :=
  [.node (panelSite 3 "constructor" .constructor 4 6 none none) [cellsTree]]

/-- A class with a method that declares the inner class, and with a constructor that binds the
method. The assignment there may have a comment. -/
def panelSites (doc : Option DocComment) : List (Tree Site) :=
  [.node (panelSite 0 "Panel" .classDecl 1 13 none none) [
    .node (panelSite 1 "render" .method 2 8 none none) [.node rowSite rowBody],
    .node (panelSite 5 "constructor" .constructor 9 12 none none) [
      .node (panelSite 6 "render" .assignment 11 11 (some "this.render") doc) []]]]

/-- The file with these declarations. -/
def panelFile (comments : List SourceComment) : SourceFile :=
  { path := "panel.js"
    comments := comments
    declarations := Tree.mapForest Site.declaration (panelSites none) }

/-- The inner class stands in the method of the outer one. -/
theorem row_reached (doc : Option DocComment) :
    Reaches (.node rowSite rowBody) (.functionBody true) .topLevel (panelSites doc) :=
  .inside List.mem_cons_self (.inside List.mem_cons_self (.here List.mem_cons_self))

/-- The member of the inner class is handed up to it. -/
theorem cells_handed_up : cellsTree ∈ handedUp rowBody :=
  mem_handed_up_iff.mpr
    ⟨by decide, _, _, List.mem_cons_self, by decide, List.mem_cons_self⟩

/-- As long as the binding of the method has no comment, the inner class is found with its member.
The binding is handed up to the outer class, finds the method there, and gives way to it. -/
theorem row_stays :
    ∃ row : Tree Draft, row.Occurs ((panelFile []).normalize 0 {}).drafts ∧
      row.value.entity.name = "Row" ∧
      (row.children.find? (bears "cells" .onInstance)).isSome = true := by
  have sites : (panelFile []).sites 0 {} = panelSites none := rfl
  have counted : (panelFile []).placeCount {} < UInt32.size := by decide +kernel
  have reached : Reaches (.node rowSite rowBody) (.functionBody true) .topLevel
      ((panelFile []).sites 0 {}) := sites ▸ row_reached none
  obtain ⟨⟨child, found, _⟩, _, _, present⟩ :=
    this_members_of_class counted reached (.inl rfl) cells_handed_up
  have undisturbed : Undisturbed (.node rowSite rowBody) (.functionBody true) .topLevel
      (panelSites none) := by
    refine .inside List.mem_cons_self rfl rfl (fun inClass => nomatch inClass)
      (.inside List.mem_cons_self rfl rfl (fun _ => .inr ?_)
        (.here List.mem_cons_self fun inClass => nomatch inClass))
    intro assignment handed _ _
    obtain rfl := List.mem_singleton.mp handed
    rfl
  exact ⟨_, present (sites ▸ undisturbed), rfl, Option.isSome_iff_exists.mpr ⟨child, found⟩⟩

/-- The comment on the binding of the method. -/
def boundComment : SourceComment := { text := "/** Bound. */", span := ⟨10, 10, 0, 0⟩ }

/-- With a comment the binding takes the place of the method, and the inner class is lost with its
member. All premises on the inner class are met, so it is the last part of the main statement that
needs its condition. -/
theorem row_lost :
    let file := panelFile [boundComment]
    Reaches (.node rowSite rowBody) (.functionBody true) .topLevel (file.sites 0 {}) ∧
      rowSite.OpensClass ∧ cellsTree ∈ handedUp rowBody ∧
      ∀ draft ∈ Tree.forestPreorder (file.normalize 0 {}).drafts,
        draft.entity.order ≠ rowSite.order ∧ draft.entity.name ≠ "cells" := by
  have sites : (panelFile [boundComment]).sites 0 {} =
      panelSites (some (Comment.parse boundComment.text ⟨"panel.js", 10⟩).1) := rfl
  exact ⟨sites ▸ row_reached _, .inl rfl, cells_handed_up, by decide +kernel⟩

end Panels

end DocGraph.Draft
