import DocGraph.Proofs.Cutting
import DocGraph.Proofs.DefiningComments

/-!
# Members that are handed up to a class

An assignment to `this.x` that stands directly in a constructor, a method, a getter or a setter of a
class declares a member of that class. It is left out of the drafts of the function, and handed up
to the class with the assignments of the other functions. No other body hands anything up, so what a
class gets does not depend on the classes, functions and literals that stand around it or inside of
its functions.

The class takes the assignments one after the other. For each name the outcome is the same as if all
were compared at once: of the member that the class declares itself and of all assignments, the
first one with a comment stands for the name, or the first one at all when none has a comment.

What a declaration hands up is defined together with its drafts, by recursion over the tree and with
the scope passed down. It is taken out of that recursion here: only two scopes hand anything up, and
for these the list is a filter of the declarations.
-/

namespace DocGraph

namespace Site

variable {site : Site} {scope : Scope}

/-- A class or an interface. Object literals have no body of this kind; assignments in their
functions stay there. -/
def OpensClass (site : Site) : Prop :=
  site.declaration.kind = .classDecl ∨ site.declaration.kind = .interface

/-- A declaration that is a function with its own object when it stands in a class. Functions that
are assigned to a field of the class are none of them. -/
def isMemberFunction (site : Site) : Bool :=
  match site.declaration.kind with
  | .constructor | .method | .getter | .setter => true
  | _ => false

instance (site : Site) : Decidable site.OpensClass := inferInstanceAs (Decidable (_ ∨ _))

/-- Only classes and interfaces have a class body. -/
theorem child_scope_eq_class_body_iff : site.childScope scope = .classBody ↔ site.OpensClass := by
  unfold childScope OpensClass
  cases site.declaration.kind <;> simp <;> split <;> simp

/-- Only the functions that stand directly in a class have a body that hands members up. Other
functions have a body, too, but it is not that of a class and keeps what stands in it. -/
theorem child_scope_eq_function_body_iff :
    site.childScope scope = .functionBody true ↔
      scope = .classBody ∧ site.isMemberFunction = true := by
  unfold childScope isMemberFunction
  cases site.declaration.kind <;> simp <;> split <;> simp

/-- A class is handed up nowhere. -/
theorem is_hoisted_of_opens_class (opens : site.OpensClass) : site.isHoisted scope = false := by
  have kind : site.declaration.kind ≠ .assignment := by
    rcases opens with same | same <;> rw [same] <;> decide
  simp [isHoisted, Declaration.isThisMember, kind]

/-- An assignment has no class body. -/
theorem not_opens_class_of_is_this_member (member : site.declaration.isThisMember = true) :
    ¬site.OpensClass := by
  intro opens
  have kept : site.isHoisted (.functionBody true) = false := is_hoisted_of_opens_class opens
  rw [isHoisted, member] at kept
  cases kept

end Site

namespace Draft

/-- The assignments to members of a class, in the functions of its body. They are listed function by
function, in the order of the body. -/
def handedUp (body : List (Tree Site)) : List (Tree Site) :=
  body.flatMap fun member =>
    if member.value.isMemberFunction then
      member.children.filter fun inner => inner.value.declaration.isThisMember
    else []

/-- The draft of an assignment that is handed up. Its own children are merged as everywhere else;
what is handed up is the whole tree. -/
def handedTree (assignment : Tree Site) : Tree Draft :=
  .node (assignment.value.draft (.functionBody true))
    (mergeMembers (ofSites (assignment.value.childScope (.functionBody true))
      assignment.children).drafts)

/-- The members that a class declares itself. -/
def ownMembers (body : List (Tree Site)) : List (Tree Draft) :=
  mergeMembers (ofSites .classBody body).drafts

/-- The draft of a class: its own members, and those that are handed up to it. The members of the
class come first, and an assignment may replace one of them. -/
def classTree (scope : Scope) (site : Site) (body : List (Tree Site)) : Tree Draft :=
  .node (site.draft scope) (adoptAll (ownMembers body) ((handedUp body).map handedTree))

/-- A draft has a name and a binding. -/
def bears (name : String) (binding : Binding) (tree : Tree Draft) : Bool :=
  tree.value.entity.name = name && tree.value.binding = binding

/-- Of several drafts the first documented one, or the first one when none is documented. It is what
the class keeps for a name when several members contend for it. -/
def standing (candidates : List (Tree Draft)) : Option (Tree Draft) :=
  (candidates.find? fun candidate => candidate.value.entity.documented).or candidates.head?

/-- What is handed up is an assignment to a member, directly in a function of the body. -/
theorem mem_handed_up_iff {assignment : Tree Site} {body : List (Tree Site)} :
    assignment ∈ handedUp body ↔
      assignment.value.declaration.isThisMember = true ∧ ∃ member nested,
        .node member nested ∈ body ∧ member.isMemberFunction = true ∧ assignment ∈ nested := by
  rw [handedUp, List.mem_flatMap]
  constructor
  · rintro ⟨⟨member, nested⟩, listed, inside⟩
    split at inside
    · next function =>
      obtain ⟨present, own⟩ := List.mem_filter.mp inside
      exact ⟨own, member, nested, listed, function, present⟩
    · cases inside
  · rintro ⟨own, member, nested, listed, function, present⟩
    refine ⟨.node member nested, listed, ?_⟩
    rw [if_pos (show (Tree.node member nested).value.isMemberFunction = true from function)]
    exact List.mem_filter.mpr ⟨present, own⟩

section Contributions

variable {scope : Scope} {site : Site} {body nested : List (Tree Site)}

mutual

/-- Outside of classes and their functions a declaration hands nothing up.

Proof: induction on the tree. Below the declaration the scope is again neither of the two, unless
the declaration opens a class, and a class keeps what is handed up to it. -/
theorem hoisted_of_site_eq_nil : ∀ (scope : Scope) (tree : Tree Site), scope ≠ .classBody →
    scope ≠ .functionBody true → (ofSite scope tree).hoisted = []
  | scope, .node site nested, noClass, noFunction => by
    have passed : site.childScope scope ≠ .classBody →
        (ofSites (site.childScope scope) nested).hoisted = [] := fun other =>
      hoisted_of_sites_eq_nil _ nested other fun own =>
        noClass (Site.child_scope_eq_function_body_iff.mp own).1
    have stays : site.isHoisted scope = false := by simp [Site.isHoisted, noFunction]
    by_cases opens : site.childScope scope = .classBody
    · simp [ofSite, enclose, stays, opens]
    · simp [ofSite, enclose, stays, opens, passed opens]

/-- Outside of classes and their functions nothing is handed up. -/
theorem hoisted_of_sites_eq_nil : ∀ (scope : Scope) (forest : List (Tree Site)),
    scope ≠ .classBody → scope ≠ .functionBody true → (ofSites scope forest).hoisted = []
  | _, [], _, _ => rfl
  | scope, first :: rest, noClass, noFunction => by
    rw [ofSites, Contribution.append, hoisted_of_site_eq_nil scope first noClass noFunction,
      hoisted_of_sites_eq_nil scope rest noClass noFunction]
    rfl

end

/-- In a function of a class, a declaration that is no class passes nothing on. -/
theorem hoisted_inside_function (other : ¬site.OpensClass) :
    (ofSites (site.childScope (.functionBody true)) nested).hoisted = [] := by
  refine hoisted_of_sites_eq_nil _ nested (mt Site.child_scope_eq_class_body_iff.mp other) ?_
  intro own
  cases (Site.child_scope_eq_function_body_iff.mp own).1

/-- An assignment to a member is all that a declaration in a function of a class hands up. The
assignment hands itself up and passes on nothing of what it holds. -/
theorem hoisted_of_site_function_body (tree : Tree Site) :
    (ofSite (.functionBody true) tree).hoisted =
      if tree.value.declaration.isThisMember then [handedTree tree] else [] := by
  obtain ⟨site, nested⟩ := tree
  by_cases member : site.declaration.isThisMember = true
  · have other := Site.not_opens_class_of_is_this_member member
    have noClass : site.childScope (.functionBody true) ≠ .classBody :=
      mt Site.child_scope_eq_class_body_iff.mp other
    simp [ofSite, enclose, Site.isHoisted, member, noClass, hoisted_inside_function other,
      handedTree, Tree.value, Tree.children]
  · by_cases opens : site.OpensClass
    · simp [ofSite, enclose, Site.isHoisted, member, Site.child_scope_eq_class_body_iff.mpr opens,
        Tree.value]
    · have noClass : site.childScope (.functionBody true) ≠ .classBody :=
        mt Site.child_scope_eq_class_body_iff.mp opens
      simp [ofSite, enclose, Site.isHoisted, member, noClass, hoisted_inside_function opens,
        Tree.value]

/-- A function of a class hands up the assignments that stand directly in it. -/
theorem hoisted_of_sites_function_body (forest : List (Tree Site)) :
    (ofSites (.functionBody true) forest).hoisted =
      (forest.filter fun inner => inner.value.declaration.isThisMember).map handedTree := by
  induction forest with
  | nil => rfl
  | cons first rest inductionHypothesis =>
    rw [ofSites, Contribution.append, hoisted_of_site_function_body, inductionHypothesis,
      List.filter_cons]
    split <;> rfl

/-- A declaration in a class body hands up the assignments in it, if it is a function. The body of
the function is the one place from which it gets anything. -/
theorem hoisted_of_site_class_body (tree : Tree Site) :
    (ofSite .classBody tree).hoisted = (handedUp [tree]).map handedTree := by
  obtain ⟨site, nested⟩ := tree
  have stays : site.isHoisted .classBody = false := by simp [Site.isHoisted]
  by_cases function : site.isMemberFunction = true
  · have scope : site.childScope .classBody = .functionBody true :=
      Site.child_scope_eq_function_body_iff.mpr ⟨rfl, function⟩
    simp [ofSite, enclose, stays, scope, hoisted_of_sites_function_body, handedUp, function,
      Tree.value, Tree.children]
  · by_cases opens : site.childScope .classBody = .classBody
    · simp [ofSite, enclose, stays, opens, handedUp, function, Tree.value]
    · have noFunction : site.childScope .classBody ≠ .functionBody true := fun own =>
        function (Site.child_scope_eq_function_body_iff.mp own).2
      simp [ofSite, enclose, stays, opens, handedUp, function, Tree.value,
        hoisted_of_sites_eq_nil _ nested opens noFunction]

/-- A class body hands up the assignments in its functions. -/
theorem hoisted_of_sites_class_body (body : List (Tree Site)) :
    (ofSites .classBody body).hoisted = (handedUp body).map handedTree := by
  induction body with
  | nil => rfl
  | cons first rest inductionHypothesis =>
    rw [ofSites, Contribution.append, hoisted_of_site_class_body, inductionHypothesis,
      ← List.map_append]
    simp [handedUp]

/-- A class contributes its own draft, with the members that are handed up to it, and nothing else.
It holds in every scope, so a class inside of a function of another class gives the outer one
nothing but itself. -/
theorem of_site_of_opens_class (opens : site.OpensClass) (scope : Scope) (body : List (Tree Site)) :
    ofSite scope (.node site body) = ⟨[classTree scope site body], []⟩ := by
  simp [ofSite, enclose, Site.child_scope_eq_class_body_iff.mpr opens,
    Site.is_hoisted_of_opens_class opens, hoisted_of_sites_class_body, classTree, ownMembers]

end Contributions

section Adoption

variable {name : String} {binding : Binding} {member found : Tree Draft}
  {members candidates others : List (Tree Draft)}

/-- A candidate without rivals stands. -/
theorem standing_to_list (candidate : Option (Tree Draft)) :
    standing candidate.toList = candidate := by
  cases candidate with
  | none => rfl
  | some only =>
    simp only [standing, Option.toList_some, List.find?_singleton]
    split <;> rfl

/-- Comparing the one that stands with further candidates is comparing all of them. It lets the
candidates be compared one after the other, as they are taken in. -/
theorem standing_append (candidates others : List (Tree Draft)) :
    standing ((standing candidates).toList ++ others) = standing (candidates ++ others) := by
  cases documented : candidates.find? fun candidate => candidate.value.entity.documented with
  | some first =>
    have own : first.value.entity.documented = true := by simpa using List.find?_some documented
    simp [standing, documented, own]
  | none =>
    cases candidates with
    | nil => simp [standing]
    | cons head rest =>
      obtain ⟨undocumented, later⟩ : head.value.entity.documented = false ∧
          (rest.find? fun candidate => candidate.value.entity.documented) = none := by
        simpa using documented
      simp [standing, undocumented, later]

/-- The one that stands is one of the candidates. -/
theorem mem_of_standing (stands : standing candidates = some member) : member ∈ candidates := by
  rcases Option.or_eq_some_iff.mp stands with first | ⟨_, first⟩
  · exact List.mem_of_find?_eq_some first
  · exact List.mem_of_mem_head? first

/-- One of the candidates stands, if there are any. -/
theorem exists_standing (listed : member ∈ candidates) :
    ∃ first, standing candidates = some first := by
  cases candidates with
  | nil => cases listed
  | cons head rest =>
    rw [standing, List.head?_cons]
    cases (head :: rest).find? fun candidate => candidate.value.entity.documented with
    | none => exact ⟨head, rfl⟩
    | some documented => exact ⟨documented, rfl⟩

/-- The one that stands is documented when any candidate is. A candidate without a comment stands
only where none has one. -/
theorem documented_of_standing (stands : standing candidates = some member) :
    member.value.entity.documented = true ↔
      ∃ candidate ∈ candidates, candidate.value.entity.documented = true := by
  refine ⟨fun own => ⟨member, mem_of_standing stands, own⟩, ?_⟩
  rintro ⟨candidate, listed, documented⟩
  rcases Option.or_eq_some_iff.mp stands with first | ⟨none, _⟩
  · simpa using List.find?_some first
  · exact absurd documented (List.find?_eq_none.mp none candidate listed)

/-- After one member was taken in, a name stands for what it stood for, or for the one that was
taken in. Taking in a member touches the first one that bears its name and binding, and no other
name. -/
theorem find?_adopt (name : String) (binding : Binding) (members : List (Tree Draft))
    (found : Tree Draft) :
    (adopt members found).find? (bears name binding) =
      standing ((members.find? (bears name binding)).toList ++
        [found].filter (bears name binding)) := by
  have single (held : Option (Tree Draft)) : standing (held.toList ++ []) = held := by
    rw [List.append_nil, standing_to_list]
  induction members with
  | nil =>
    rw [adopt, List.find?_singleton, List.find?_nil, Option.toList_none, List.nil_append,
      List.filter_singleton]
    cases bears name binding found with
    | true => exact (standing_to_list (some found)).symm
    | false => rfl
  | cons held rest inductionHypothesis =>
    unfold adopt
    by_cases same : held.value.entity.name = found.value.entity.name ∧
        held.value.binding = found.value.binding
    · have alike : bears name binding held = bears name binding found := by
        rw [bears, bears, same.1, same.2]
      rw [if_pos same]
      cases own : bears name binding found with
      | true =>
        cases heldDocumented : held.value.entity.documented <;>
          cases foundDocumented : found.value.entity.documented <;>
            simp [own, alike, standing, heldDocumented, foundDocumented]
      | false =>
        have neither : bears name binding
            (if (!held.value.entity.documented && found.value.entity.documented) = true then found
              else held) = false := by
          split
          · exact own
          · exact alike.trans own
        rw [List.find?_cons, neither, List.find?_cons, alike, own, List.filter_cons, own]
        exact (single _).symm
    · rw [if_neg same, List.find?_cons, List.find?_cons]
      cases heldBears : bears name binding held with
      | false => exact inductionHypothesis
      | true =>
        have other : bears name binding found = false := by
          rw [Bool.eq_false_iff]
          intro foundBears
          simp only [bears, Bool.and_eq_true, decide_eq_true_eq] at heldBears foundBears
          exact same ⟨heldBears.1.trans foundBears.1.symm, heldBears.2.trans foundBears.2.symm⟩
        rw [List.filter_cons, other]
        exact (single _).symm

/-- After all members were taken in, a name stands for the first documented one of the members that
bear it, or for the first one.

Proof: induction on the members that are taken in, with those that are there left open. Each of them
is compared with the one that stands so far, which is the same as comparing all of them at once. -/
theorem find?_adopt_all (name : String) (binding : Binding) (members found : List (Tree Draft)) :
    (adoptAll members found).find? (bears name binding) =
      standing ((members.find? (bears name binding)).toList ++
        found.filter (bears name binding)) := by
  unfold adoptAll
  induction found generalizing members with
  | nil => rw [List.foldl_nil, List.filter_nil, List.append_nil, standing_to_list]
  | cons first rest inductionHypothesis =>
    rw [List.foldl_cons, inductionHypothesis, find?_adopt, standing_append, List.append_assoc,
      ← List.filter_append]
    rfl

/-- A member stays when it is documented, or when what is taken in bears another name or is not
documented. Only a documented assignment replaces a member, and only one without a comment. -/
theorem mem_adopt_all {found : List (Tree Draft)} (listed : member ∈ members)
    (kept : member.value.entity.documented = true ∨ ∀ other ∈ found,
      bears member.value.entity.name member.value.binding other = true →
        other.value.entity.documented = false) :
    member ∈ adoptAll members found := by
  unfold adoptAll
  induction found generalizing members with
  | nil => exact listed
  | cons first rest inductionHypothesis =>
    refine inductionHypothesis ?_ (kept.imp_right fun others => (List.forall_mem_cons.mp others).2)
    induction listed with
    | head rest =>
      unfold adopt
      split
      · next same =>
        have held : (!member.value.entity.documented && first.value.entity.documented) = false := by
          rcases kept with documented | others
          · rw [documented]
            rfl
          · have bearer : bears member.value.entity.name member.value.binding first = true := by
              simp [bears, same]
            rw [others first List.mem_cons_self bearer, Bool.and_false]
        rw [held, if_neg Bool.false_ne_true]
        exact List.mem_cons_self
      · exact List.mem_cons_self
    | tail held _ inner =>
      unfold adopt
      split
      · exact List.mem_cons_of_mem _ ‹_›
      · exact List.mem_cons_of_mem _ inner

end Adoption

end Draft

end DocGraph
