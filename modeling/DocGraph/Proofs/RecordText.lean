import DocGraph.Config
import DocGraph.Entity.Json
import DocGraph.Proofs.JsonReading
import DocGraph.Proofs.PathText

/-!
# Reading written records

Every record of an entity is read back from its JSON form. The forms hold only what can be written
and read, and open few brackets at once. One thing is not kept: the first binding of a path, which
is never written. An entity is therefore read back grounded, with static heads on its own path, its
parent and the paths that its relations lead to. Member lists are no part of the form, and none is
read.

Records that only describe source files are written too; nothing is said about them here.

The four facts about a form are kept together in one structure, because each of them is needed
wherever the form stands inside of another: reading for the value, plainness and height for the
text, and being no null for values that may be missing. Lists and options are then treated once for
all kinds of records.
-/

namespace DocGraph

namespace Json

/-- A written form keeps a kind of record when every value is read back from it in a given shape,
when it has only plain parts and opens at most so many brackets, and when it is never null. The
shape is the identity for everything that does not hold a path. -/
structure Keeps {α β : Type} (encode : α → Json) (decode : Json → Option β) (shape : α → β)
    (room : Nat) : Prop where
  reads : ∀ value, decode (encode value) = some (shape value)
  plain : ∀ value, (encode value).isPlain = true
  low : ∀ value, (encode value).height ≤ room
  solid : ∀ value, encode value ≠ null

variable {α β : Type} {encode : α → Json} {decode : Json → Option β} {shape : α → β} {room : Nat}

/-- Strings are kept. -/
theorem keeps_text : Keeps text text? id 0 :=
  ⟨fun _ => rfl, fun _ => rfl, fun _ => Nat.le_refl 0, fun _ => by simp⟩

/-- Truth values are kept. -/
theorem keeps_bool : Keeps bool bool? id 0 :=
  ⟨fun _ => rfl, fun _ => rfl, fun _ => Nat.le_refl 0, fun _ => by simp⟩

/-- Numbers of 32 bits are kept. It is where the bound on plain numbers comes from. -/
theorem keeps_of_uint32 : Keeps ofUInt32 uint32? id 0 := by
  refine ⟨uint32?_of_uint32, ?_, fun _ => Nat.le_refl 0, fun _ => by simp [ofUInt32]⟩
  intro value
  exact decide_eq_true value.toNat_lt

/-- A list is kept when its items are, with one bracket more. An empty list opens one bracket all
the same. -/
theorem Keeps.list (items : Keeps encode decode shape room) :
    Keeps (ofList encode) (list? decode) (List.map shape) (room + 1) := by
  refine ⟨?_, ?_, ?_, fun _ => by simp [ofList]⟩
  · intro values
    rw [ofList, list?]
    induction values with
    | nil => rfl
    | cons first rest inductionHypothesis => simp [items.reads, inductionHypothesis]
  · intro values
    rw [ofList, isPlain]
    induction values with
    | nil => rfl
    | cons first rest inductionHypothesis =>
      simp [allPlain, items.plain, inductionHypothesis]
  · intro values
    rw [ofList, height]
    induction values with
    | nil => simp [itemsHeight]
    | cons first rest inductionHypothesis =>
      have low := items.low first
      rw [List.map_cons, itemsHeight]
      omega

/-- A value that may be missing is kept when it is kept otherwise. A missing value is written as
null, so the form of a value must not be null itself. -/
theorem Keeps.reads_option (item : Keeps encode decode shape room) (value : Option α) :
    orNull? decode (ofOption encode value) = some (value.map shape) := by
  cases value with
  | none => rfl
  | some value =>
    rw [ofOption, orNull?, item.reads]
    · rfl
    · exact item.solid value

/-- A value that may be missing is plain when it is plain otherwise. -/
theorem Keeps.plain_option (item : Keeps encode decode shape room) (value : Option α) :
    (ofOption encode value).isPlain = true := by
  cases value with
  | none => rfl
  | some value => exact item.plain value

/-- A value that may be missing opens no more brackets than otherwise. -/
theorem Keeps.low_option (item : Keeps encode decode shape room) (value : Option α) :
    (ofOption encode value).height ≤ room := by
  cases value with
  | none => exact Nat.zero_le room
  | some value => exact item.low value

/-- A field that stands once is read, and reading goes on with its value. It peels one field off the
reader of a record, and the proofs about records are sequences of it. -/
theorem bind_required {γ : Type} {fields : Fields} {key : String} {json : Json}
    {decode : Json → Option α} {value : α} (held : field? fields key = some (some json))
    (reads : decode json = some value) (next : α → Option γ) :
    (required fields key decode >>= next) = next value := by
  simp [required, held, reads]

/-- A field that stands once and may be null is read, and reading goes on with it. A field that is
written is never left out, so its default does not matter. -/
theorem bind_optional {γ : Type} {fields : Fields} {key : String} {json : Json}
    {decode : Json → Option α} {value : Option α} (held : field? fields key = some (some json))
    (reads : orNull? decode json = some value) (next : Option α → Option γ) :
    (Json.optional fields key decode >>= next) = next value := by
  simp [Json.optional, defaulted, held, reads]

/-- A field under another key is not looked at. Further fields stand behind those of an entity when
it is written with its members. -/
theorem field?_append {fields extra : Fields} {key : String}
    (absent : ∀ field ∈ extra, field.1 ≠ key) :
    field? (fields ++ extra) key = field? fields key := by
  have none : extra.filter (fun field => field.1 = key) = [] := by
    simpa [List.filter_eq_nil_iff] using absent
  simp [field?, none]

end Json

open Json

namespace NamePath

/-- Paths are kept with a static head. It is the one form that does not keep its value, and all
other losses come from it. -/
theorem keeps : Keeps toJson ofJson? withStaticHead 0 :=
  ⟨of_json?_to_json, fun _ => rfl, fun _ => Nat.le_refl 0, fun _ => by simp [toJson]⟩

end NamePath

namespace Location

/-- Locations are kept. -/
theorem keeps : Keeps toJson ofJson? id 1 := by
  refine ⟨?_, ?_, ?_, fun _ => by simp [toJson]⟩
  · intro location
    simp [toJson, ofJson?, fields?, required, field?, text?]
  · intro location
    simp [toJson, isPlain, fieldsPlain, keeps_of_uint32.plain]
  · intro location
    simp [toJson, height, fieldsHeight, ofUInt32]

end Location

namespace SourceOrder

/-- Places in the source order are kept. -/
theorem keeps : Keeps toJson ofJson? id 1 := by
  refine ⟨?_, ?_, ?_, fun _ => by simp [toJson]⟩
  · intro order
    simp [toJson, ofJson?, fields?, required, field?]
  · intro order
    simp [toJson, isPlain, fieldsPlain, keeps_of_uint32.plain]
  · intro order
    simp [toJson, height, fieldsHeight, ofUInt32]

end SourceOrder

namespace Param

/-- Parameters are kept. -/
theorem keeps : Keeps toJson ofJson? id 1 := by
  refine ⟨?_, ?_, ?_, fun _ => by simp [toJson]⟩
  · intro param
    simp [toJson, ofJson?, fields?, required, Json.optional, defaulted, field?, keeps_text.reads,
      keeps_bool.reads, keeps_text.reads_option]
  · intro param
    simp [toJson, isPlain, fieldsPlain, keeps_text.plain_option]
  · intro param
    have types := keeps_text.low_option param.typeText
    have defaults := keeps_text.low_option param.defaultText
    simp only [toJson, height, fieldsHeight]
    omega

end Param

namespace Returns

/-- Returned values are kept. -/
theorem keeps : Keeps toJson ofJson? id 1 := by
  refine ⟨?_, ?_, ?_, fun _ => by simp [toJson]⟩
  · intro returned
    simp [toJson, ofJson?, fields?, required, Json.optional, defaulted, field?, keeps_text.reads,
      keeps_text.reads_option]
  · intro returned
    simp [toJson, isPlain, fieldsPlain, keeps_text.plain_option]
  · intro returned
    have types := keeps_text.low_option returned.typeText
    simp only [toJson, height, fieldsHeight]
    omega

end Returns

namespace Throws

/-- Raised exceptions are kept. -/
theorem keeps : Keeps toJson ofJson? id 1 := by
  refine ⟨?_, ?_, ?_, fun _ => by simp [toJson]⟩
  · intro raised
    simp [toJson, ofJson?, fields?, required, Json.optional, defaulted, field?, keeps_text.reads,
      keeps_text.reads_option]
  · intro raised
    simp [toJson, isPlain, fieldsPlain, keeps_text.plain_option]
  · intro raised
    have types := keeps_text.low_option raised.typeText
    simp only [toJson, height, fieldsHeight]
    omega

end Throws

namespace TypeParam

/-- Type parameters are kept. -/
theorem keeps : Keeps toJson ofJson? id 1 := by
  refine ⟨?_, ?_, ?_, fun _ => by simp [toJson]⟩
  · intro param
    simp [toJson, ofJson?, fields?, required, Json.optional, defaulted, field?, keeps_text.reads,
      keeps_text.reads_option]
  · intro param
    simp [toJson, isPlain, fieldsPlain, keeps_text.plain_option]
  · intro param
    have constraints := keeps_text.low_option param.constraint
    have defaults := keeps_text.low_option param.defaultText
    simp only [toJson, height, fieldsHeight]
    omega

end TypeParam

namespace Signature

/-- Signatures are kept. -/
theorem keeps : Keeps toJson ofJson? id 3 := by
  refine ⟨?_, ?_, ?_, fun _ => by simp [toJson]⟩
  · intro signature
    simp [toJson, ofJson?, fields?, required, field?, keeps_text.reads, Param.keeps.list.reads,
      Returns.keeps.list.reads]
  · intro signature
    simp [toJson, isPlain, fieldsPlain, Param.keeps.list.plain, Returns.keeps.list.plain]
  · intro signature
    have params := Param.keeps.list.low signature.params
    have returns := Returns.keeps.list.low signature.returns
    simp only [toJson, height, fieldsHeight]
    omega

end Signature

namespace AccessorParts

/-- The halves of an accessor are kept. -/
theorem keeps : Keeps toJson ofJson? id 1 := by
  refine ⟨?_, ?_, ?_, fun _ => by simp [toJson]⟩
  · intro parts
    simp [toJson, ofJson?, fields?, required, field?, keeps_bool.reads]
  · intro parts
    simp [toJson, isPlain, fieldsPlain]
  · intro parts
    simp [toJson, height, fieldsHeight]

end AccessorParts

namespace TagParam

/-- The name part of a tag is kept. -/
theorem keeps : Keeps toJson ofJson? id 1 := by
  refine ⟨?_, ?_, ?_, fun _ => by simp [toJson]⟩
  · intro param
    simp [toJson, ofJson?, fields?, required, Json.optional, defaulted, field?, keeps_text.reads,
      keeps_bool.reads, keeps_text.reads_option]
  · intro param
    simp [toJson, isPlain, fieldsPlain, keeps_text.plain_option]
  · intro param
    have defaults := keeps_text.low_option param.defaultText
    simp only [toJson, height, fieldsHeight]
    omega

end TagParam

section Words

variable (isFiller : Json → Bool)

/-- Kinds of entities are kept, whatever may stand under a word that is a key. Words that are read
as values may also be keys of an object with one field, and what stands under them then does not
matter. -/
theorem EntityKind.keeps : Keeps EntityKind.toJson (EntityKind.ofJson? isFiller) id 0 := by
  refine ⟨?_, fun _ => rfl, fun _ => Nat.le_refl 0, fun _ => by simp [EntityKind.toJson]⟩
  intro kind
  cases kind <;> rfl

/-- Levels of visibility are kept. -/
theorem Visibility.keeps : Keeps Visibility.toJson (Visibility.ofJson? isFiller) id 0 := by
  refine ⟨?_, fun _ => rfl, fun _ => Nat.le_refl 0, fun _ => by simp [Visibility.toJson]⟩
  intro level
  cases level <;> rfl

/-- Orders of members are kept. -/
theorem MemberOrder.keeps : Keeps MemberOrder.toJson MemberOrder.ofJson? id 0 := by
  refine ⟨?_, fun _ => rfl, fun _ => Nat.le_refl 0, fun _ => by simp [MemberOrder.toJson]⟩
  intro order
  cases order <;> rfl

/-- Kinds of tags are kept, those without a canonical kind under their own names. A name that is
also that of a canonical kind is read as this kind, and it is never given to another one. -/
theorem TagKind.keeps : Keeps TagKind.toJson (TagKind.ofJson? isFiller) id 1 := by
  refine ⟨?_, ?_, ?_, ?_⟩
  · intro kind
    cases kind <;> rfl
  · intro kind
    cases kind <;> rfl
  · intro kind
    cases kind <;> simp [TagKind.toJson, height, fieldsHeight]
  · intro kind
    cases kind <;> simp [TagKind.toJson]

/-- Tags are kept. -/
theorem Tag.keeps : Keeps Tag.toJson (Tag.ofJson? isFiller) id 2 := by
  refine ⟨?_, ?_, ?_, fun _ => by simp [Tag.toJson]⟩
  · intro tag
    simp [Tag.toJson, Tag.ofJson?, fields?, required, Json.optional, defaulted, field?,
      keeps_text.reads, keeps_text.reads_option, keeps_text.list.reads,
      TagParam.keeps.reads_option, (TagKind.keeps isFiller).reads]
  · intro tag
    simp [Tag.toJson, isPlain, fieldsPlain, keeps_text.plain_option, keeps_text.list.plain,
      TagParam.keeps.plain_option, (TagKind.keeps isFiller).plain]
  · intro tag
    have kinds := (TagKind.keeps isFiller).low tag.kind
    have types := keeps_text.low_option tag.typeExpr
    have params := TagParam.keeps.low_option tag.param
    have args := keeps_text.list.low tag.args
    simp only [Tag.toJson, height, fieldsHeight]
    omega

/-- A relation with a static head on the path that it leads to. What the relation names is a text
and stays. -/
def Relation.grounded (relation : Relation) : Relation :=
  { relation with resolved := relation.resolved.map NamePath.withStaticHead }

/-- Relations are kept, grounded. -/
theorem Relation.keeps :
    Keeps Relation.toJson (Relation.ofJson? isFiller) Relation.grounded 1 := by
  refine ⟨?_, ?_, ?_, fun _ => by simp [Relation.toJson]⟩
  · intro relation
    have kinds : RelationKind.ofJson? isFiller (.text relation.kind.word) =
        some relation.kind := by
      cases relation.kind <;> rfl
    simp [Relation.toJson, Relation.ofJson?, fields?, required, Json.optional, defaulted, field?,
      keeps_text.reads, NamePath.keeps.reads_option, kinds, Relation.grounded]
  · intro relation
    simp [Relation.toJson, isPlain, fieldsPlain, NamePath.keeps.plain_option]
  · intro relation
    have resolved := NamePath.keeps.low_option relation.resolved
    simp only [Relation.toJson, height, fieldsHeight]
    omega

end Words

namespace Entity

/-- An entity with static heads on all its paths and without a member list: what its
written form says. -/
def grounded (entity : Entity) : Entity :=
  { entity with
    path := entity.path.withStaticHead
    parent := entity.parent.map NamePath.withStaticHead
    relations := entity.relations.map Relation.grounded
    members := [] }

/-- An entity is read back grounded from its fields. Proof: the fields are read one after the other,
each by the fact about its own form, in the order in which they are written. -/
theorem of_fields?_to_fields (isFiller : Json → Bool) (entity : Entity) :
    ofFields? isFiller entity.toFields = some entity.grounded := by
  unfold ofFields?
  refine (bind_required rfl ((EntityKind.keeps isFiller).reads _) _).trans ?_
  refine (bind_required rfl (keeps_text.reads _) _).trans ?_
  refine (bind_required rfl (NamePath.keeps.reads _) _).trans ?_
  refine (bind_optional rfl (NamePath.keeps.reads_option _) _).trans ?_
  refine (bind_required rfl (Location.keeps.reads _) _).trans ?_
  refine (bind_required rfl (SourceOrder.keeps.reads _) _).trans ?_
  refine (bind_required rfl ((Visibility.keeps isFiller).reads _) _).trans ?_
  refine (bind_optional rfl (keeps_text.reads_option _) _).trans ?_
  refine (bind_required rfl (keeps_text.reads _) _).trans ?_
  refine (bind_required rfl ((Tag.keeps isFiller).list.reads _) _).trans ?_
  refine (bind_required rfl (Param.keeps.list.reads _) _).trans ?_
  refine (bind_required rfl (Returns.keeps.list.reads _) _).trans ?_
  refine (bind_required rfl (Throws.keeps.list.reads _) _).trans ?_
  refine (bind_optional rfl (keeps_text.reads_option _) _).trans ?_
  refine (bind_required rfl (TypeParam.keeps.list.reads _) _).trans ?_
  refine (bind_required rfl (keeps_text.list.reads _) _).trans ?_
  refine (bind_required rfl (keeps_text.list.reads _) _).trans ?_
  refine (bind_required rfl (Param.keeps.list.reads _) _).trans ?_
  refine (bind_required rfl (Signature.keeps.list.reads _) _).trans ?_
  refine (bind_optional rfl (AccessorParts.keeps.reads_option _) _).trans ?_
  refine (bind_required rfl (keeps_bool.reads _) _).trans ?_
  refine (bind_required rfl (keeps_bool.reads _) _).trans ?_
  refine (bind_required rfl (keeps_bool.reads _) _).trans ?_
  refine (bind_required rfl (keeps_bool.reads _) _).trans ?_
  refine (bind_required rfl (keeps_bool.reads _) _).trans ?_
  refine (bind_required rfl (keeps_bool.reads _) _).trans ?_
  refine (bind_required rfl ((Relation.keeps isFiller).list.reads _) _).trans ?_
  simp [grounded]

/-- The fields of an entity are plain. -/
theorem fields_plain_to_fields (entity : Entity) : fieldsPlain entity.toFields = true := by
  simp [toFields, fieldsPlain, isPlain, EntityKind.toJson, NamePath.toJson, Visibility.toJson,
    NamePath.keeps.plain_option, Location.keeps.plain, SourceOrder.keeps.plain,
    keeps_text.plain_option, (Tag.keeps isNull).list.plain, Param.keeps.list.plain,
    Returns.keeps.list.plain, Throws.keeps.list.plain, TypeParam.keeps.list.plain,
    keeps_text.list.plain, Signature.keeps.list.plain, AccessorParts.keeps.plain_option,
    (Relation.keeps isNull).list.plain]

/-- The fields of an entity open at most four brackets at once. The highest of them are the
signatures, which hold lists of parameters. -/
theorem fields_height_to_fields (entity : Entity) : fieldsHeight entity.toFields ≤ 4 := by
  have parents := NamePath.keeps.low_option entity.parent
  have locations := Location.keeps.low entity.location
  have orders := SourceOrder.keeps.low entity.order
  have deprecations := keeps_text.low_option entity.deprecated
  have tags := (Tag.keeps isNull).list.low entity.tags
  have params := Param.keeps.list.low entity.params
  have returns := Returns.keeps.list.low entity.returns
  have throws := Throws.keeps.list.low entity.throws
  have types := keeps_text.low_option entity.typeText
  have typeParams := TypeParam.keeps.list.low entity.typeParams
  have examples := keeps_text.list.low entity.examples
  have references := keeps_text.list.low entity.seeAlso
  have properties := Param.keeps.list.low entity.properties
  have signatures := Signature.keeps.list.low entity.signatures
  have accessors := AccessorParts.keeps.low_option entity.accessor
  have relations := (Relation.keeps isNull).list.low entity.relations
  simp only [toFields, fieldsHeight, EntityKind.toJson, NamePath.toJson, Visibility.toJson, height]
  omega

/-- Entities are kept, grounded. One bracket is added for the object around the fields. -/
theorem keeps : Keeps toJson ofJson? grounded 5 := by
  refine ⟨?_, fields_plain_to_fields, ?_, fun _ => by simp [toJson]⟩
  · intro entity
    exact of_fields?_to_fields isNull entity
  · intro entity
    exact Nat.succ_le_succ (fields_height_to_fields entity)

end Entity

namespace ModuleInfo

/-- What is said about the module is kept. -/
theorem keeps : Keeps toJson ofJson? id 2 := by
  refine ⟨?_, ?_, ?_, fun _ => by simp [toJson]⟩
  · intro info
    simp [toJson, ofJson?, fields?, required, Json.optional, defaulted, field?,
      keeps_text.reads, keeps_text.reads_option, keeps_text.list.reads]
  · intro info
    simp [toJson, isPlain, fieldsPlain, keeps_text.plain_option, keeps_text.list.plain]
  · intro info
    have versions := keeps_text.low_option info.version
    have authors := keeps_text.list.low info.authors
    have licenses := keeps_text.low_option info.license
    simp only [toJson, height, fieldsHeight]
    omega

end ModuleInfo

end DocGraph
