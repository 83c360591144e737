import DocGraph.Proofs.RecordText
import DocGraph.Snapshot.Json

/-!
# Reading written snapshots

A written snapshot is read back exactly when it opens no more brackets at once than a reader allows.
What is read is the grounded snapshot: every path has lost its first binding, and siblings whose
paths are then the same have become one.

A snapshot that is too high is refused as a whole. The brackets that matter are those of nested
members; everything else about an entity opens few of them.

What is written is read back by following the writer: fields that are looked for stand in front, the
members stand last, and trees and forests are read in the order in which they are written. The
height is needed at one place only, where the text is read as a value.
-/

namespace DocGraph

namespace Json

mutual

/-- A plain value is readable throughout. Everything that is written is plain, and what a reader
accepts has to be readable only. -/
theorem is_readable_of_is_plain : ∀ (value : Json), value.isPlain = true → value.isReadable = true
  | array items, plain => all_readable_of_all_plain items plain
  | object fields, plain => fields_readable_of_fields_plain fields plain
  | null, _ => rfl
  | bool _, _ => rfl
  | natural _, _ => rfl
  | text _, _ => rfl
  | numeral, plain => absurd plain (by decide)
  | unreadable, plain => absurd plain (by decide)

/-- Plain items are readable throughout. -/
theorem all_readable_of_all_plain : ∀ (items : List Json), allPlain items = true →
    allReadable items = true
  | [], _ => rfl
  | first :: rest, plain => by
    rw [allPlain, Bool.and_eq_true] at plain
    rw [allReadable, is_readable_of_is_plain first plain.1, all_readable_of_all_plain rest plain.2]
    rfl

/-- Plain fields are readable throughout. -/
theorem fields_readable_of_fields_plain : ∀ (fields : List (String × Json)),
    fieldsPlain fields = true → fieldsReadable fields = true
  | [], _ => rfl
  | (_, value) :: rest, plain => by
    rw [fieldsPlain, Bool.and_eq_true] at plain
    rw [fieldsReadable, is_readable_of_is_plain value plain.1,
      fields_readable_of_fields_plain rest plain.2]
    rfl

end

/-- Two lists of fields are plain when both are. -/
theorem fields_plain_append (left right : List (String × Json)) :
    fieldsPlain (left ++ right) = (fieldsPlain left && fieldsPlain right) := by
  induction left with
  | nil => rfl
  | cons field rest inductionHypothesis =>
    simp [fieldsPlain, inductionHypothesis, Bool.and_assoc]

/-- The height of two lists of fields is the greater one. A list of fields is as high as its highest
value. -/
theorem fields_height_append (left right : List (String × Json)) :
    fieldsHeight (left ++ right) = max (fieldsHeight left) (fieldsHeight right) := by
  induction left with
  | nil => simp [fieldsHeight]
  | cons field rest inductionHypothesis =>
    simp [fieldsHeight, inductionHypothesis, Nat.max_assoc]

/-- Fields are readable throughout when each of their values is. For fields it does not matter in
which order they stand. -/
theorem fields_readable_iff (fields : List (String × Json)) :
    fieldsReadable fields = true ↔ ∀ field ∈ fields, field.2.isReadable = true := by
  induction fields with
  | nil => simp [fieldsReadable]
  | cons field rest inductionHypothesis =>
    simp [fieldsReadable, inductionHypothesis]

end Json

open Json

namespace Snapshot

mutual

/-- A tree of entities as its written form says it. Members are filed under their own paths again,
and this is where siblings can become one. -/
def groundTree : Tree (NamePath × Entity) → Tree (NamePath × Entity)
  | .node (path, entity) members =>
    .node (path.withStaticHead, entity.grounded) (keyed (groundTrees members))

/-- Every tree as its written form says it. -/
def groundTrees : List (Tree (NamePath × Entity)) → List (Tree (NamePath × Entity))
  | [] => []
  | first :: rest => groundTree first :: groundTrees rest

end

/-- A snapshot as its written form says it. Superseded entities are not nested, so only their own
paths are grounded. -/
def grounded (snapshot : Snapshot) : Snapshot :=
  { snapshot with
    entities := keyed (groundTrees snapshot.entities)
    superseded := snapshot.superseded.map Entity.grounded }

/-- No field of an entity stands under the key of the members. So the members can be told from the
rest. -/
theorem ne_members_key_of_mem_to_fields {entity : Entity} {field : String × Json}
    (present : field ∈ entity.toFields) : field.1 ≠ membersKey := by
  have named : field.1 ∈ entity.toFields.map Prod.fst := List.mem_map_of_mem present
  have other : membersKey ∉ entity.toFields.map Prod.fst := by
    simp [Entity.toFields, membersKey]
  exact fun same => other (same ▸ named)

/-- The members are looked for behind the fields of the entity. Reading stops at the first field of
this name. -/
theorem members?_append {fields extra : Fields}
    (other : ∀ field ∈ fields, field.1 ≠ membersKey) :
    members? (fields ++ extra) = members? extra := by
  induction fields with
  | nil => rfl
  | cons field rest inductionHypothesis =>
    have differs := other field List.mem_cons_self
    rw [List.cons_append, members?, if_neg differs]
    exact inductionHypothesis fun later present => other later (List.mem_cons_of_mem field present)

/-- The only field that is written after those of an entity is that of the members. -/
theorem eq_members_key_of_mem_members_field {trees : List (Tree (NamePath × Entity))}
    {field : String × Json} (present : field ∈ membersField trees) : field.1 = membersKey := by
  cases trees with
  | nil => simp [membersField] at present
  | cons first rest =>
    simp only [membersField, List.mem_singleton] at present
    rw [present]

/-- The fields of an entity are read back when its members stand behind them. No reader of a field
sees the members, since they stand under another key. -/
theorem of_fields?_append (isFiller : Json → Bool) (entity : Entity)
    (trees : List (Tree (NamePath × Entity))) :
    Entity.ofFields? isFiller (entity.toFields ++ membersField trees) = some entity.grounded := by
  have same (key : String) (differs : key ≠ membersKey) :
      field? (entity.toFields ++ membersField trees) key = field? entity.toFields key := by
    refine field?_append ?_
    intro field present
    rw [eq_members_key_of_mem_members_field present]
    exact Ne.symm differs
  have needed {α : Type} (key : String) (differs : key ≠ membersKey) (decode : Json → Option α) :
      required (entity.toFields ++ membersField trees) key decode =
        required entity.toFields key decode := by
    rw [required, same key differs, required]
  have free {α : Type} (key : String) (differs : key ≠ membersKey) (decode : Json → Option α) :
      Json.optional (entity.toFields ++ membersField trees) key decode =
        Json.optional entity.toFields key decode := by
    rw [Json.optional, defaulted, same key differs, Json.optional, defaulted]
  rw [← Entity.of_fields?_to_fields isFiller entity]
  simp (disch := decide) only [Entity.ofFields?, needed, free]

/-- The own fields of a written entity are readable. The members are left to the reader of trees. -/
theorem own_fields_readable_append (entity : Entity) (trees : List (Tree (NamePath × Entity))) :
    ownFieldsReadable (entity.toFields ++ membersField trees) = true := by
  have readable := (fields_readable_iff _).mp
    (fields_readable_of_fields_plain _ (Entity.fields_plain_to_fields entity))
  rw [ownFieldsReadable, List.all_eq_true]
  intro field present
  rcases List.mem_append.mp present with own | members
  · simp [readable field own]
  · simp [eq_members_key_of_mem_members_field members]

mutual

/-- A written tree is read back grounded, under the path that it is read for. The path of the tree
itself is not written with it, since it is the key of the forest around it.

Proof by induction on the tree, together with the statement on forests: an entity without members
has no field for them, and all others have one that holds a forest. -/
theorem tree?_tree_json : ∀ (tree : Tree (NamePath × Entity)) (path : NamePath),
    tree? path (treeJson tree) =
      some (.node (path, tree.value.2.grounded) (keyed (groundTrees tree.children)))
  | .node (held, entity) members, path => by
    have inside : members? (membersField members) = some (keyed (groundTrees members)) := by
      cases members with
      | nil =>
        rw [membersField, members?, groundTrees]
        rfl
      | cons first rest =>
        have reads := trees?_forest_fields (first :: rest)
        simp [membersField, members?, forest?, reads]
    rw [treeJson, tree?, if_pos (own_fields_readable_append entity members),
      of_fields?_append isVacant entity members,
      members?_append fun field present => ne_members_key_of_mem_to_fields present, inside]
    rfl

/-- Written trees are read back grounded, under the paths that are written for them. A key is the
written path, and reading it grounds the path. -/
theorem trees?_forest_fields : ∀ trees : List (Tree (NamePath × Entity)),
    trees? (forestFields trees) = some (groundTrees trees)
  | [] => by rw [forestFields, trees?, groundTrees]
  | .node (path, entity) members :: rest => by
    have first := tree?_tree_json (.node (path, entity) members) path.withStaticHead
    have later := trees?_forest_fields rest
    rw [forestFields, trees?, NamePath.parse_or_root_render]
    dsimp only
    rw [first, later, groundTrees, groundTree]
    rfl

end

mutual

/-- A written tree is plain. So the reader of texts gives back exactly this value. -/
theorem is_plain_tree_json : ∀ tree : Tree (NamePath × Entity), (treeJson tree).isPlain = true
  | .node (_, entity) members => by
    have inside : fieldsPlain (membersField members) = true := by
      cases members with
      | nil =>
        rw [membersField]
        rfl
      | cons first rest =>
        have plain := fields_plain_forest_fields (first :: rest)
        rw [membersField, fieldsPlain, isPlain, plain]
        rfl
    rw [treeJson, isPlain, fields_plain_append, Entity.fields_plain_to_fields, inside]
    rfl

/-- Written trees are plain. -/
theorem fields_plain_forest_fields : ∀ trees : List (Tree (NamePath × Entity)),
    fieldsPlain (forestFields trees) = true
  | [] => by
    rw [forestFields]
    rfl
  | .node (path, entity) members :: rest => by
    have first := is_plain_tree_json (.node (path, entity) members)
    rw [forestFields, fieldsPlain, first, fields_plain_forest_fields rest]
    rfl

end

mutual

/-- What is read as a tree is readable throughout. A reader of trees that passes over something it
cannot read would accept too much. -/
theorem is_readable_of_tree? : ∀ (value : Json) {path : NamePath}
    {tree : Tree (NamePath × Entity)}, tree? path value = some tree → value.isReadable = true
  | .object fields, path, tree, reads => by
    rw [tree?] at reads
    split at reads
    · next own =>
      rw [ownFieldsReadable, List.all_eq_true] at own
      split at reads
      · next entity members _ found =>
        exact fields_readable_of_members? fields found (by simpa using own)
      · cases reads
    · cases reads
  | .null, _, _, _ => rfl
  | .bool _, _, _, _ => rfl
  | .natural _, _, _, _ => rfl
  | .numeral, _, _, _ => rfl
  | .text _, _, _, _ => rfl
  | .array _, _, _, reads => by simp [tree?] at reads
  | .unreadable, _, _, reads => by simp [tree?] at reads

/-- Fields are readable throughout when the members are read from them and all other
fields are readable. -/
theorem fields_readable_of_members? : ∀ (fields : List (String × Json))
    {trees : List (Tree (NamePath × Entity))}, members? fields = some trees →
    (∀ field ∈ fields, field.1 = membersKey ∨ field.2.isReadable = true) →
    fieldsReadable fields = true
  | [], _, _, _ => rfl
  | (name, value) :: rest, trees, reads, own => by
    rw [members?] at reads
    split at reads
    · split at reads
      · cases reads
      · next named alone =>
        rw [fieldsReadable, is_readable_of_forest? value reads, Bool.true_and,
          fields_readable_iff]
        intro field present
        have other : field.1 ≠ membersKey := by
          intro same
          exact alone (List.any_eq_true.mpr ⟨field, present, decide_eq_true same⟩)
        exact (own field (List.mem_cons_of_mem _ present)).resolve_left other
    · next other =>
      have first : value.isReadable = true :=
        (own (name, value) List.mem_cons_self).resolve_left other
      have later := fields_readable_of_members? rest reads fun field present =>
        own field (List.mem_cons_of_mem _ present)
      rw [fieldsReadable, first, later]
      rfl

/-- What is read as an object of trees is readable throughout. -/
theorem is_readable_of_forest? : ∀ (value : Json) {trees : List (Tree (NamePath × Entity))},
    forest? value = some trees → value.isReadable = true
  | .object fields, trees, reads => by
    rw [forest?] at reads
    obtain ⟨found, readsAll, _⟩ := Option.map_eq_some_iff.mp reads
    exact fields_readable_of_trees? fields readsAll
  | .null, _, _ => rfl
  | .bool _, _, _ => rfl
  | .natural _, _, _ => rfl
  | .numeral, _, _ => rfl
  | .text _, _, _ => rfl
  | .array _, _, reads => by simp [forest?] at reads
  | .unreadable, _, reads => by simp [forest?] at reads

/-- What is read as trees under their paths is readable throughout. -/
theorem fields_readable_of_trees? : ∀ (fields : List (String × Json))
    {trees : List (Tree (NamePath × Entity))}, trees? fields = some trees →
    fieldsReadable fields = true
  | [], _, _ => rfl
  | (name, value) :: rest, trees, reads => by
    rw [trees?] at reads
    split at reads
    · cases reads
    · split at reads
      · next tree others first later =>
        rw [fieldsReadable, is_readable_of_tree? value first, fields_readable_of_trees? rest later]
        rfl
      · cases reads

end

/-- The field of the superseded entities, unless there are none. The field is left out when it would
be empty. -/
def supersededField (superseded : List Entity) : Fields :=
  if superseded.isEmpty then [] else [("superseded", ofList Entity.toJson superseded)]

/-- The written form of a snapshot, field by field. It is the form in which the parts of a snapshot
are looked at one by one. -/
theorem to_json_eq (snapshot : Snapshot) :
    snapshot.toJson = .object (("module", snapshot.info.toJson) ::
      ("member_order", snapshot.memberOrder.toJson) ::
      ("entities", .object (forestFields snapshot.entities)) ::
      supersededField snapshot.superseded) :=
  rfl

/-- A written snapshot is plain. -/
theorem is_plain_to_json (snapshot : Snapshot) : snapshot.toJson.isPlain = true := by
  have lost : fieldsPlain (supersededField snapshot.superseded) = true := by
    unfold supersededField
    split
    · rfl
    · rw [fieldsPlain, Entity.keeps.list.plain]
      rfl
  rw [to_json_eq]
  simp only [isPlain, fieldsPlain, ModuleInfo.keeps.plain, MemberOrder.keeps.plain,
    fields_plain_forest_fields, lost, Bool.and_self]

/-- Whether a snapshot is too high depends on its nested entities only. All else is at most six
brackets high, and one bracket is that of the snapshot itself. -/
theorem height_to_json_le_iff (snapshot : Snapshot) :
    snapshot.toJson.height ≤ depthLimit ↔
      (Json.object (forestFields snapshot.entities)).height ≤ depthLimit - 1 := by
  have lost : fieldsHeight (supersededField snapshot.superseded) ≤ 6 := by
    unfold supersededField
    split
    · exact Nat.zero_le 6
    · have low := Entity.keeps.list.low snapshot.superseded
      simp only [fieldsHeight]
      omega
  have described := ModuleInfo.keeps.low snapshot.info
  have ordered := MemberOrder.keeps.low snapshot.memberOrder
  rw [to_json_eq, height, fieldsHeight, fieldsHeight, fieldsHeight, depthLimit]
  omega

/-- A written snapshot is read back grounded. It says nothing of texts: the height plays no part
here. -/
theorem of_json?_to_json (snapshot : Snapshot) :
    ofJson? snapshot.toJson = some snapshot.grounded := by
  have entities : forest? (.object (forestFields snapshot.entities)) =
      some (keyed (groundTrees snapshot.entities)) := by
    rw [forest?, trees?_forest_fields]
    rfl
  have reads : list? Entity.ofJson? (ofList Entity.toJson snapshot.superseded) =
      some (snapshot.superseded.map Entity.grounded) := Entity.keeps.list.reads _
  rw [to_json_eq, ofJson?, grounded]
  cases lost : snapshot.superseded with
  | nil =>
    simp [supersededField, fields?, required, defaulted, field?, ModuleInfo.keeps.reads,
      MemberOrder.keeps.reads, entities]
  | cons first rest =>
    rw [lost] at reads
    simp [supersededField, fields?, required, defaulted, field?, ModuleInfo.keeps.reads,
      MemberOrder.keeps.reads, entities, reads]

/-- What is read as a snapshot holds its nested entities in an object that is readable throughout.
It is what the main statement on arbitrary texts asks for. -/
theorem is_readable_of_of_json? {fields : Fields} {value : Json} {snapshot : Snapshot}
    (held : field? fields "entities" = some (some value))
    (reads : ofJson? (.object fields) = some snapshot) : value.isReadable = true := by
  simp only [ofJson?, fields?, required, held, bind, Option.bind_some,
    Option.bind_eq_some_iff] at reads
  obtain ⟨_, _, _, _, entities, found, _⟩ := reads
  exact is_readable_of_forest? value found

/-- The text of a snapshot is read back grounded if it opens no more brackets at once than are
allowed, and is refused otherwise.

Proof: what is written is plain, so the text is read as the same value if it is low enough, and as
none otherwise. The value is read back grounded. -/
theorem parse?_render (snapshot : Snapshot) :
    parse? snapshot.render =
      if snapshot.toJson.height ≤ depthLimit then some snapshot.grounded else none := by
  rw [parse?, render, read_indented (is_plain_to_json snapshot), Option.bind_some]
  split
  · next low => rw [clip_of_height_le _ low, of_json?_to_json]
  · next high =>
    rw [Option.eq_none_iff_forall_ne_some]
    intro read reads
    apply high
    rw [to_json_eq, clip, if_neg (by decide)] at reads
    have held : field? (clipFields (depthLimit - 1) (("module", snapshot.info.toJson) ::
        ("member_order", snapshot.memberOrder.toJson) ::
        ("entities", .object (forestFields snapshot.entities)) ::
        supersededField snapshot.superseded)) "entities" =
        some (some (clip (depthLimit - 1) (.object (forestFields snapshot.entities)))) := by
      unfold supersededField
      split <;> simp [clipFields, field?]
    exact (height_to_json_le_iff snapshot).mpr
      (height_le_of_is_readable_clip _ (is_readable_of_of_json? held reads))

end Snapshot

end DocGraph
