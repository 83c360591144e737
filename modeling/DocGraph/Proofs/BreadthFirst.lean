import DocGraph.Proofs.Referrers

/-!
# Walking supertypes breadth first

The walk along supertypes keeps a queue in which a path may stand several times, and leaves out what
it has visited before. Left to itself, without this memory, it would go on forever in a circle of
supertypes and meet the paths generation by generation: the start, its supertypes, their supertypes,
each in the order of the relations.

The memory takes away repetitions only. A path that is visited again has its supertypes in the queue
or visited already, so leaving them out changes nothing that is met for the first time. The walk
therefore lists the live paths that can be reached, each once, in the order in which the generations
first mention them. Dead paths are met and passed over.

The comparison with the generations goes through a walk without memory, which is cut off after a
number of steps so that it can be written down. Whatever it meets first is a prefix of what the walk
with memory lists, and after enough steps it has met any number of generations.
-/

namespace DocGraph

section FirstOccurrences

variable {α κ : Type} [DecidableEq κ] {key : α → κ} {taken : List κ} {items others : List α}

/-- The first items of two lists are those of the first list, and those of the second one that the
first list does not take. What the first list takes is added to the taken keys, so this is the way
in which a long list is gone through in two parts. -/
theorem first_per_key_append : firstPerKey key taken (items ++ others) =
    firstPerKey key taken items ++
      firstPerKey key (taken ++ (firstPerKey key taken items).map key) others := by
  induction items generalizing taken with
  | nil => simp [firstPerKey]
  | cons item rest inductionHypothesis =>
    rw [List.cons_append, firstPerKey, firstPerKey]
    split
    · exact inductionHypothesis
    · rw [inductionHypothesis, List.map_cons, List.append_assoc, List.cons_append]
      rfl

/-- Items with different keys are all kept. The keys that were taken before must not be among them,
either. -/
theorem first_per_key_of_nodup (distinct : (items.map key).Nodup)
    (fresh : ∀ item ∈ items, key item ∉ taken) : firstPerKey key taken items = items := by
  induction items generalizing taken with
  | nil => rfl
  | cons item rest inductionHypothesis =>
    rw [List.map_cons, List.nodup_cons] at distinct
    have unseen : ¬taken.contains (key item) = true := fun seen =>
      fresh item List.mem_cons_self (List.contains_iff_mem.mp seen)
    rw [firstPerKey, if_neg unseen, inductionHypothesis distinct.2]
    intro other later seen
    rcases List.mem_append.mp seen with old | same
    · exact fresh other (List.mem_cons_of_mem item later) old
    · exact distinct.1 (List.mem_singleton.mp same ▸ List.mem_map_of_mem later)

/-- First occurrences come in the order of the list that they are taken from. An item is kept where
it stands first, so nothing that is kept later can have an earlier first occurrence. -/
theorem pairwise_idx_of_first_per_key {items taken : List κ} :
    (firstPerKey id taken items).Pairwise fun nearer further =>
      items.idxOf nearer < items.idxOf further := by
  have kept {items taken : List κ} {asked : κ} (kept : asked ∈ firstPerKey id taken items) :
      asked ∉ taken :=
    (mem_keys_first_per_key.mp (List.mem_map_of_mem (f := id) kept)).2
  induction items generalizing taken with
  | nil => exact .nil
  | cons item rest inductionHypothesis =>
    have later (taken : List κ) (seen : item ∈ taken) :
        (firstPerKey id taken rest).Pairwise fun nearer further =>
          (item :: rest).idxOf nearer < (item :: rest).idxOf further := by
      have differs {asked : κ} (inAsked : asked ∈ firstPerKey id taken rest) : item ≠ asked :=
        fun same => kept inAsked (same ▸ seen)
      refine inductionHypothesis.imp_of_mem fun {nearer further} inNearer inFurther before => ?_
      rw [List.idxOf_cons_ne _ (differs inNearer), List.idxOf_cons_ne _ (differs inFurther)]
      exact Nat.succ_lt_succ before
    unfold firstPerKey
    split
    · next seen => exact later taken (List.contains_iff_mem.mp seen)
    · refine List.pairwise_cons.mpr ⟨fun further inFurther => ?_, later _ (by simp)⟩
      rw [List.idxOf_cons_self, List.idxOf_cons_ne _ fun same => kept inFurther (by simp [same])]
      exact Nat.succ_pos _

end FirstOccurrences

namespace Graph

variable {graph : Graph} {start path : NamePath}
  {visited seen queue before extra after : List NamePath}

/-- One path has another as a supertype when its entity has a relation to a supertype that is
resolved to the other path. It is a relation of a graph and not of the source: a supertype that was
not found in the layout is not inherited from. -/
def Inherits (graph : Graph) (path supertype : NamePath) : Prop :=
  ∃ entity, graph.live.get? path = some entity ∧
    ∃ relation ∈ entity.relations, relation.kind.isSupertype = true ∧
      relation.resolved = some supertype

/-- A live path that is reached along supertypes. The start is an ancestor of itself if it is live.
The paths on the way need not be live. -/
def Ancestor (graph : Graph) (start path : NamePath) : Prop :=
  path ∈ graph.live.keys ∧ Relation.ReflTransGen graph.Inherits start path

/-- The supertypes of the entity at a path, none if there is no entity. They come in the order of
the relations, with repetitions as they were recorded. -/
def supertypesAt (graph : Graph) (path : NamePath) : List NamePath :=
  ((graph.live.get? path).map supertypes).getD []

/-- The paths that are so many steps away, each as often as there are ways to it. In a circle the
generations never end, and a path then belongs to infinitely many of them. -/
def generation (graph : Graph) (start : NamePath) : Nat → List NamePath
  | 0 => [start]
  | steps + 1 => (graph.generation start steps).flatMap graph.supertypesAt

/-- The paths that are fewer steps away, generation by generation. It is finite for any number of
steps, and a longer stretch begins with a shorter one. -/
def within (graph : Graph) (start : NamePath) (steps : Nat) : List NamePath :=
  (List.range steps).flatMap (graph.generation start)

/-- In breadth-first order one path comes no later than another: wherever the generations mention
the other one, they mention it no later. It is said for every number of steps because the
generations may go on forever; for a path that is never mentioned it says nothing. -/
def NoLater (graph : Graph) (start nearer further : NamePath) : Prop :=
  ∀ steps, further ∈ graph.within start steps →
    (graph.within start steps).idxOf nearer ≤ (graph.within start steps).idxOf further

/-- All paths of a list were visited or are in a queue. This is what the memory of a walk has to
guarantee for a path to be left out: it has been seen, or its turn will come. -/
def Known (visited queue paths : List NamePath) : Prop :=
  ∀ path ∈ paths, path ∈ visited ∨ path ∈ queue

/-- The first paths that a walk without memory meets. It is cut off after a number of paths. A path
is met as often as it is in the queue. -/
def meets (graph : Graph) : Nat → List NamePath → List NamePath
  | 0, _ => []
  | _ + 1, [] => []
  | count + 1, current :: rest =>
    current :: graph.meets count (rest ++ graph.supertypesAt current)

/-- The supertypes at a path are those that it inherits from. A path without an entity has no
supertypes and inherits from nothing. -/
theorem mem_supertypes_at_iff {supertype : NamePath} :
    supertype ∈ graph.supertypesAt path ↔ graph.Inherits path supertype := by
  unfold supertypesAt Inherits
  cases graph.live.get? path with
  | none => simp
  | some entity =>
    simp [supertypes, List.mem_filterMap, List.mem_filter, and_assoc]

/-- A walk ends with the queue. -/
@[simp]
theorem lineage_nil : graph.lineage visited [] = [] := by
  rw [lineage]

/-- A path that was visited is left out. Its supertypes were put into the queue when it was
visited. -/
@[simp]
theorem lineage_cons_of_mem (seen : path ∈ visited) :
    graph.lineage visited (path :: queue) = graph.lineage visited queue := by
  rw [lineage, dif_pos seen]

/-- A path that is visited for the first time is listed if it is live, and its supertypes come to
the end of the queue. A path that is not live has no entity and so no supertypes; it is remembered
all the same. -/
@[simp]
theorem lineage_cons_of_not_mem (fresh : path ∉ visited) :
    graph.lineage visited (path :: queue) =
      [path].filter (graph.live.contains ·) ++
        graph.lineage (visited ++ [path]) (queue ++ graph.supertypesAt path) := by
  rw [lineage, dif_neg fresh]
  split
  · next dead =>
    have absent : graph.live.contains path ≠ true := fun present =>
      Table.get?_eq_none_iff.mp dead (Table.contains_iff.mp present)
    simp [supertypesAt, dead, absent]
  · next entity found =>
    have present : graph.live.contains path = true :=
      Table.contains_iff.mpr (Table.mem_keys_of_get? found)
    simp [supertypesAt, found, present]

/-- What was visited before stays out of a walk, however often it is in the queue. Repetitions at
the front of a queue can therefore be dropped one after the other. -/
theorem lineage_append_seen (seen : extra ⊆ visited) :
    graph.lineage visited (extra ++ after) = graph.lineage visited after := by
  induction extra with
  | nil => rfl
  | cons path rest inductionHypothesis =>
    rw [List.cons_subset] at seen
    rw [List.cons_append, lineage_cons_of_mem seen.1, inductionHypothesis seen.2]

/-- A fact about visited paths and a queue holds if it is handed on by each turn of a walk. It does
not distinguish live from dead paths, which the recursion of the walk does; a dead path simply has
no supertypes. -/
theorem walk_induct (graph : Graph) {motive : List NamePath → List NamePath → Prop}
    (ends : ∀ visited, motive visited [])
    (seen : ∀ visited path queue, path ∈ visited → motive visited queue →
      motive visited (path :: queue))
    (fresh : ∀ visited path queue, path ∉ visited →
      motive (visited ++ [path]) (queue ++ graph.supertypesAt path) →
      motive visited (path :: queue)) :
    ∀ visited queue, motive visited queue := by
  apply lineage.induct graph motive ends seen
  · intro visited path queue unseen dead next
    refine fresh visited path queue unseen ?_
    simpa [supertypesAt, dead] using next
  · intro visited path queue unseen entity found _ next
    refine fresh visited path queue unseen ?_
    simpa [supertypesAt, found] using next

/-- Known paths stay known when the first path in the queue has been visited. The first path of the
queue goes over to the visited ones, and all others stay where they were. -/
theorem Known.advance {first : NamePath} (known : Known visited (first :: queue) extra)
    (grown : visited ⊆ seen) (taken : first ∈ seen) : Known seen queue extra := by
  intro path present
  rcases known path present with old | ahead
  · exact .inl (grown old)
  · rcases List.mem_cons.mp ahead with rfl | ahead
    · exact .inl taken
    · exact .inr ahead

/-- Known paths stay known when the queue gets longer. -/
theorem Known.append (known : Known visited queue extra) : Known visited (queue ++ after) extra :=
  fun path present => (known path present).imp_right (List.mem_append_left after)

/-- Paths that were visited, or that stand further ahead in the queue, can be left out of it: when
the walk comes to them, they have been visited.

Proof: induction on the walk. A path that was visited is dropped from the queue in both cases. A
fresh one comes from the front part, and then it is visited when the walk comes to the paths in
question; their supertypes are appended to the last part of the queue. -/
theorem lineage_skip (known : Known visited before extra) :
    graph.lineage visited (before ++ extra ++ after) = graph.lineage visited (before ++ after) := by
  -- the queue is split anew at each turn, and the supertypes that are found come to its end
  suffices ∀ visited queue, ∀ before after extra : List NamePath, queue = before ++ after →
      Known visited before extra →
      graph.lineage visited (before ++ extra ++ after) = graph.lineage visited queue from
    this visited _ before after extra rfl known
  have emptied (visited after extra : List NamePath) (known : Known visited [] extra) :
      graph.lineage visited ([] ++ extra ++ after) = graph.lineage visited after :=
    lineage_append_seen fun path present => (known path present).resolve_right List.not_mem_nil
  refine walk_induct graph ?_ ?_ ?_
  · intro visited before after extra whole known
    obtain ⟨rfl, rfl⟩ := List.nil_eq_append_iff.mp whole
    exact emptied visited [] extra known
  · intro visited path queue seen inductionHypothesis before after extra whole known
    cases before with
    | nil => exact whole ▸ emptied visited after extra known
    | cons first rest =>
      obtain ⟨rfl, rfl⟩ := List.cons.inj whole
      rw [List.cons_append, List.cons_append, lineage_cons_of_mem seen, lineage_cons_of_mem seen]
      exact inductionHypothesis rest after extra rfl (known.advance (List.Subset.refl visited) seen)
  · intro visited path queue unseen inductionHypothesis before after extra whole known
    cases before with
    | nil => exact whole ▸ emptied visited after extra known
    | cons first rest =>
      obtain ⟨rfl, rfl⟩ := List.cons.inj whole
      rw [List.cons_append, List.cons_append, lineage_cons_of_not_mem unseen,
        lineage_cons_of_not_mem unseen, List.append_assoc]
      congr 1
      exact inductionHypothesis rest (after ++ graph.supertypesAt path) extra
        (List.append_assoc ..) (known.advance (List.subset_append_left ..) (by simp))

/-- The live paths that a walk without memory meets first, each where it is met for the first time,
are the first ones that the walk lists, as long as the supertypes of all visited paths are known.

Proof: induction on the number of paths met. If the first path of the queue was visited, the walk
drops it and its supertypes, which are known, can be left out of the longer queue. If it is fresh,
both take it and append the same supertypes. The premise holds again in each case, since the
supertypes of a path are in the queue when it is visited. -/
theorem filter_first_per_key_meets_prefix (count : Nat)
    (closed : ∀ path ∈ visited, Known visited queue (graph.supertypesAt path)) :
    (firstPerKey id visited (graph.meets count queue)).filter (graph.live.contains ·) <+:
      graph.lineage visited queue := by
  induction count generalizing visited queue with
  | zero => exact List.nil_prefix
  | succ count inductionHypothesis =>
    cases queue with
    | nil => exact List.nil_prefix
    | cons path rest =>
      rw [meets, firstPerKey, id]
      by_cases seen : path ∈ visited
      · have known : Known visited rest (graph.supertypesAt path) :=
          (closed path seen).advance (List.Subset.refl visited) seen
        have same : graph.lineage visited (rest ++ graph.supertypesAt path) =
            graph.lineage visited rest := by
          have skipped : graph.lineage visited (rest ++ graph.supertypesAt path ++ []) =
              graph.lineage visited (rest ++ []) := lineage_skip known
          rwa [List.append_nil, List.append_nil] at skipped
        rw [if_pos (List.contains_iff_mem.mpr seen), lineage_cons_of_mem seen, ← same]
        exact inductionHypothesis fun other old =>
          ((closed other old).advance (List.Subset.refl visited) seen).append
      · rw [if_neg (mt List.contains_iff_mem.mp seen), lineage_cons_of_not_mem seen,
          ← List.singleton_append, List.filter_append, List.prefix_append_right_inj]
        refine inductionHypothesis fun other old => ?_
        rcases List.mem_append.mp old with old | new
        · exact ((closed other old).advance (List.subset_append_left ..) (by simp)).append
        · rw [List.mem_singleton.mp new]
          exact fun supertype above => .inr (List.mem_append_right rest above)

/-- A walk without memory meets the whole queue, and then the supertypes of all its paths. While the
queue is gone through, the supertypes found come behind everything else, and so they stay in the
order in which their owners stood. -/
theorem meets_append (count : Nat) :
    graph.meets (queue.length + count) (queue ++ after) =
      queue ++ graph.meets count (after ++ queue.flatMap graph.supertypesAt) := by
  induction queue generalizing after with
  | nil => simp
  | cons path rest inductionHypothesis =>
    rw [List.length_cons, Nat.succ_add, List.cons_append, meets, List.append_assoc,
      inductionHypothesis, List.flatMap_cons, List.append_assoc, List.cons_append]

/-- A walk without memory meets the generations one after the other. The number of steps that this
takes is the length of the generations, which is why it is only said to exist. -/
theorem exists_meets_eq_within (graph : Graph) (start : NamePath) (steps : Nat) :
    ∃ length, ∀ count, graph.meets (length + count) [start] =
      graph.within start steps ++ graph.meets count (graph.generation start steps) := by
  induction steps with
  | zero => exact ⟨0, fun count => by simp [within, generation]⟩
  | succ steps inductionHypothesis =>
    obtain ⟨length, met⟩ := inductionHypothesis
    refine ⟨length + (graph.generation start steps).length, fun count => ?_⟩
    have next : graph.meets ((graph.generation start steps).length + count)
        (graph.generation start steps ++ []) =
          graph.generation start steps ++
            graph.meets count ([] ++ graph.generation start (steps + 1)) := meets_append count
    rw [List.append_nil, List.nil_append] at next
    rw [Nat.add_assoc, met, next, within, within, List.range_succ, List.flatMap_append,
      List.flatMap_singleton, List.append_assoc]

/-- What the generations first mention, as far as it is live, is what the walk lists first. It is
the comparison for a walk that begins with its start in the queue and nothing visited, where the
premise about visited paths is void. -/
theorem filter_first_per_key_within_prefix (graph : Graph) (start : NamePath) (steps : Nat) :
    (firstPerKey id [] (graph.within start steps)).filter (graph.live.contains ·) <+:
      graph.lineage [] [start] := by
  obtain ⟨length, met⟩ := graph.exists_meets_eq_within start steps
  have begins : (firstPerKey id [] (graph.meets (length + 0) [start])).filter
      (graph.live.contains ·) <+: graph.lineage [] [start] :=
    filter_first_per_key_meets_prefix _ fun _ old => absurd old List.not_mem_nil
  rw [met, first_per_key_append, List.filter_append] at begins
  exact (List.prefix_append ..).trans begins

/-- Every path that is reached along supertypes is in one of the generations. The number of the
generation is the number of steps by which the path was reached, one way out of possibly several. -/
theorem exists_mem_generation (reached : Relation.ReflTransGen graph.Inherits start path) :
    ∃ steps, path ∈ graph.generation start steps := by
  induction reached with
  | refl => exact ⟨0, List.mem_singleton_self start⟩
  | tail _ inherits inductionHypothesis =>
    obtain ⟨steps, present⟩ := inductionHypothesis
    exact ⟨steps + 1, List.mem_flatMap.mpr ⟨_, present, mem_supertypes_at_iff.mpr inherits⟩⟩

/-- Only ancestors are listed by a walk whose queue is reached along supertypes. Liveness is tested
when a path is listed; that it is reached is handed on by the queue. -/
theorem ancestor_of_mem_lineage (reached : ∀ path ∈ queue,
    Relation.ReflTransGen graph.Inherits start path) (listed : path ∈ graph.lineage visited queue) :
    graph.Ancestor start path := by
  induction visited, queue using walk_induct graph with
  | ends => simp at listed
  | seen visited first rest seen inductionHypothesis =>
    rw [lineage_cons_of_mem seen] at listed
    exact inductionHypothesis (fun other ahead => reached other (.tail _ ahead)) listed
  | fresh visited first rest unseen inductionHypothesis =>
    rw [lineage_cons_of_not_mem unseen, List.mem_append] at listed
    have toFirst := reached first List.mem_cons_self
    rcases listed with here | later
    · obtain ⟨here, live⟩ := List.mem_filter.mp here
      rw [List.mem_singleton.mp here] at live ⊢
      exact ⟨Table.contains_iff.mp live, toFirst⟩
    · refine inductionHypothesis (fun other ahead => ?_) later
      rcases List.mem_append.mp ahead with ahead | above
      · exact reached other (.tail _ ahead)
      · exact toFirst.tail (mem_supertypes_at_iff.mp above)

/-- A walk lists no path twice and none that was visited before. Both statements are proved
together, because a listed path is one of the visited paths for the rest of the walk. -/
theorem nodup_lineage (graph : Graph) : ∀ visited queue,
    (graph.lineage visited queue).Nodup ∧ ∀ path ∈ graph.lineage visited queue, path ∉ visited := by
  refine walk_induct graph (fun _ => by simp) ?_ ?_
  · intro visited path queue seen inductionHypothesis
    rwa [lineage_cons_of_mem seen]
  · intro visited path queue unseen ⟨distinct, apart⟩
    rw [lineage_cons_of_not_mem unseen]
    have once : ([path].filter (graph.live.contains ·)).Nodup :=
      (List.nodup_singleton path).filter _
    refine ⟨List.nodup_append.mpr ⟨once, distinct, ?_⟩, ?_⟩
    · rintro _ here other later rfl
      exact apart _ later (List.mem_append_right _ (List.mem_filter.mp here).1)
    · intro other listed
      rcases List.mem_append.mp listed with here | later
      · rwa [List.mem_singleton.mp (List.mem_filter.mp here).1]
      · exact fun old => apart other later (List.mem_append_left _ old)

/-- A live path that the generations mention is among those that they first mention. No path was
taken before, so nothing that is mentioned is missing. -/
theorem mem_filter_first_per_key_within {steps : Nat} (live : path ∈ graph.live.keys)
    (mentioned : path ∈ graph.within start steps) :
    path ∈ (firstPerKey id [] (graph.within start steps)).filter (graph.live.contains ·) := by
  have kept : path ∈ (firstPerKey id [] (graph.within start steps)).map id :=
    mem_keys_first_per_key.mpr ⟨by simpa using mentioned, List.not_mem_nil⟩
  rw [List.map_id] at kept
  exact List.mem_filter.mpr ⟨kept, Table.contains_iff.mpr live⟩

/-- The walk lists the ancestors of its start. An ancestor is mentioned by some generation, and what
the generations up to it first mention is what the walk lists first. -/
theorem mem_lineage_iff : path ∈ graph.lineage [] [start] ↔ graph.Ancestor start path := by
  constructor
  · refine ancestor_of_mem_lineage fun other ahead => ?_
    rw [List.mem_singleton.mp ahead]
  · rintro ⟨live, reached⟩
    obtain ⟨steps, present⟩ := exists_mem_generation reached
    have mentioned : path ∈ graph.within start (steps + 1) :=
      List.mem_flatMap.mpr ⟨steps, List.mem_range.mpr (Nat.lt_succ_self steps), present⟩
    exact (graph.filter_first_per_key_within_prefix start (steps + 1)).subset
      (mem_filter_first_per_key_within live mentioned)

/-- The walk lists the ancestors in breadth-first order.

Proof: for each number of steps, what the generations up to it first mention is a prefix of the
list, in the order of first mention. A path behind this prefix is not mentioned by these
generations, so nothing is asked about it. -/
theorem pairwise_no_later_lineage (graph : Graph) (start : NamePath) :
    (graph.lineage [] [start]).Pairwise (graph.NoLater start) := by
  suffices ∀ steps, (graph.lineage [] [start]).Pairwise fun nearer further =>
      further ∈ graph.within start steps → (graph.within start steps).idxOf nearer ≤
        (graph.within start steps).idxOf further from
    List.pairwise_iff_forall_sublist.mpr fun ordered steps =>
      List.pairwise_iff_forall_sublist.mp (this steps) ordered
  intro steps
  -- the first paths of the walk come as the generations mention them, the others not at all
  obtain ⟨others, whole⟩ := graph.filter_first_per_key_within_prefix start steps
  obtain ⟨distinct, _⟩ := graph.nodup_lineage [] [start]
  have unmentioned : ∀ further ∈ others, further ∉ graph.within start steps := by
    intro further listed mentioned
    have inside : further ∈ graph.lineage [] [start] := whole ▸ List.mem_append_right _ listed
    have first := mem_filter_first_per_key_within (mem_lineage_iff.mp inside).1 mentioned
    rw [← whole, List.nodup_append] at distinct
    exact distinct.2.2 further first further listed rfl
  have ordered : (firstPerKey id [] (graph.within start steps)).Pairwise fun nearer further =>
      (graph.within start steps).idxOf nearer < (graph.within start steps).idxOf further :=
    pairwise_idx_of_first_per_key
  rw [← whole]
  refine List.pairwise_append.mpr ⟨?_, ?_, ?_⟩
  · refine (ordered.filter _).imp ?_
    exact fun {_ _} earlier _ => Nat.le_of_lt earlier
  · exact List.pairwise_of_forall_mem_list fun _ _ further listed mentioned =>
      absurd mentioned (unmentioned further listed)
  · exact fun _ _ further listed mentioned => absurd mentioned (unmentioned further listed)

/-- Up to any path that it lists, the walk lists paths that come no later. It is the form in which
the order is used for the members that a walk collects. -/
theorem exists_split_lineage (listed : path ∈ graph.lineage [] [start]) :
    ∃ early late, graph.lineage [] [start] = early ++ late ∧ path ∈ early ∧
      ∀ nearer ∈ early, graph.NoLater start nearer path := by
  obtain ⟨before, after, walk⟩ := List.append_of_mem listed
  have ordered := graph.pairwise_no_later_lineage start
  rw [walk, List.pairwise_append] at ordered
  refine ⟨before ++ [path], after, by simp [walk], by simp, fun nearer early => ?_⟩
  rcases List.mem_append.mp early with early | same
  · exact ordered.2.2 nearer early path List.mem_cons_self
  · rw [List.mem_singleton.mp same]
    exact fun _ _ => Nat.le_refl _

/-- The state of a walk between two turns. The walk of the program is written as a recursion; here
its state is made visible, so that it can be said how many turns it takes. -/
structure Walk where
  visited : List NamePath
  queue : List NamePath
  listed : List NamePath

/-- One turn of a walk takes the first path from the queue. A path that is visited for the first
time is listed if it is live, and its supertypes come to the end of the queue. A turn with an empty
queue changes nothing. -/
def turn (graph : Graph) (walk : Walk) : Walk :=
  match walk.queue with
  | [] => walk
  | path :: rest =>
    if path ∈ walk.visited then { walk with queue := rest }
    else
      { visited := walk.visited ++ [path]
        queue := rest ++ graph.supertypesAt path
        listed := walk.listed ++ [path].filter (graph.live.contains ·) }

/-- Taken turn by turn, a walk comes to its end, and has then listed what it lists. It takes a turn
for each path in the queue and for each supertype of a listed path. So the walk ends in a graph with
any circles, and the number of turns is known beforehand. The induction is on the walk, with what
was listed left open. -/
theorem exists_iterate_turn (graph : Graph) : ∀ visited queue listed, ∃ seen,
    graph.turn^[queue.length +
      ((graph.lineage visited queue).flatMap graph.supertypesAt).length] ⟨visited, queue, listed⟩ =
        ⟨seen, [], listed ++ graph.lineage visited queue⟩ := by
  refine walk_induct graph ?_ ?_ ?_
  · intro visited listed
    exact ⟨visited, by simp⟩
  · intro visited path queue seen inductionHypothesis listed
    have first : graph.turn ⟨visited, path :: queue, listed⟩ = ⟨visited, queue, listed⟩ := by
      simp [turn, seen]
    rw [lineage_cons_of_mem seen, List.length_cons, Nat.succ_add, Function.iterate_succ_apply,
      first]
    exact inductionHypothesis listed
  · intro visited path queue unseen inductionHypothesis listed
    have first : graph.turn ⟨visited, path :: queue, listed⟩ =
        ⟨visited ++ [path], queue ++ graph.supertypesAt path,
          listed ++ [path].filter (graph.live.contains ·)⟩ := by
      simp [turn, unseen]
    have own : ([path].filter (graph.live.contains ·)).flatMap graph.supertypesAt =
        graph.supertypesAt path := by
      by_cases live : graph.live.contains path = true
      · simp [live]
      · have dead : graph.live.get? path = none :=
          Table.get?_eq_none_iff.mpr (mt Table.contains_iff.mpr live)
        simp [live, supertypesAt, dead]
    rw [lineage_cons_of_not_mem unseen, List.flatMap_append, own, List.length_append,
      List.length_cons, Nat.succ_add, Function.iterate_succ_apply, first, ← Nat.add_assoc,
      ← List.length_append, ← List.append_assoc]
    exact inductionHypothesis _

end Graph

end DocGraph
