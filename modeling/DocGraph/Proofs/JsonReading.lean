import DocGraph.Proofs.JsonText

/-!
# What the limit on open brackets leaves of a value

The reader takes the tokens of a value and hands the value to the one that encloses it. By then only
so many brackets may be open, and a bracket beyond that makes its part unreadable. Reading a written
value therefore clips it to the room that is left. Clipping to at least the height of a value
changes nothing, and clipping to less always leaves an unreadable part behind.

The reader is a machine with a stack, and what is proved about it is one equation for each of the
three kinds of token lists: from a given stack it arrives where delivering the clipped value would
have taken it. The rest of the tokens is left open, so the equations can be used one after the
other.
-/

namespace DocGraph.Json

mutual

/-- What remains of a value when only so many brackets may be open inside it. A value without
brackets takes no room, and it is left as it is even when there is none. -/
def clip (room : Nat) : Json → Json
  | array items => if room = 0 then unreadable else array (clipItems (room - 1) items)
  | object fields => if room = 0 then unreadable else object (clipFields (room - 1) fields)
  | scalar => scalar

/-- What remains of every item. -/
def clipItems (room : Nat) : List Json → List Json
  | [] => []
  | first :: rest => clip room first :: clipItems room rest

/-- What remains of the value of every field. -/
def clipFields (room : Nat) : List (String × Json) → List (String × Json)
  | [] => []
  | (key, value) :: rest => (key, clip room value) :: clipFields room rest

end

mutual

/-- How many brackets are open at once, at most, inside a value. It is the room that a value needs,
and the limit is compared with it in the end. -/
def height : Json → Nat
  | array items => itemsHeight items + 1
  | object fields => fieldsHeight fields + 1
  | _ => 0

/-- The greatest height of an item. -/
def itemsHeight : List Json → Nat
  | [] => 0
  | first :: rest => max (height first) (itemsHeight rest)

/-- The greatest height of the value of a field. -/
def fieldsHeight : List (String × Json) → Nat
  | [] => 0
  | (_, value) :: rest => max (height value) (fieldsHeight rest)

end

mutual

/-- A value that is not too high is not clipped. The three facts go along the three recursions of
clipping; only at brackets the room gets less. -/
theorem clip_of_height_le : ∀ (value : Json) {room : Nat}, value.height ≤ room →
    clip room value = value
  | array items, room, low => by
    rw [height] at low
    rw [clip, if_neg (by omega), clip_items_of_height_le items (by omega)]
  | object fields, room, low => by
    rw [height] at low
    rw [clip, if_neg (by omega), clip_fields_of_height_le fields (by omega)]
  | null, _, _ => rfl
  | bool _, _, _ => rfl
  | natural _, _, _ => rfl
  | numeral, _, _ => rfl
  | text _, _, _ => rfl
  | unreadable, _, _ => rfl

/-- Items that are not too high are not clipped. -/
theorem clip_items_of_height_le : ∀ (items : List Json) {room : Nat}, itemsHeight items ≤ room →
    clipItems room items = items
  | [], _, _ => rfl
  | first :: rest, room, low => by
    rw [itemsHeight, Nat.max_le] at low
    rw [clipItems, clip_of_height_le first low.1, clip_items_of_height_le rest low.2]

/-- Fields that are not too high are not clipped. -/
theorem clip_fields_of_height_le : ∀ (fields : List (String × Json)) {room : Nat},
    fieldsHeight fields ≤ room → clipFields room fields = fields
  | [], _, _ => rfl
  | (key, value) :: rest, room, low => by
    rw [fieldsHeight, Nat.max_le] at low
    rw [clipFields, clip_of_height_le value low.1, clip_fields_of_height_le rest low.2]

end

mutual

/-- A clipped value is readable throughout only if it was not too high. It is the converse for
readable values, so that clipping to less than the height always shows. -/
theorem height_le_of_is_readable_clip : ∀ (value : Json) {room : Nat},
    (clip room value).isReadable = true → value.height ≤ room
  | array items, room, readable => by
    rw [clip] at readable
    split at readable
    · cases readable
    · have low := items_height_le_of_all_readable_clip items readable
      rw [height]
      omega
  | object fields, room, readable => by
    rw [clip] at readable
    split at readable
    · cases readable
    · have low := fields_height_le_of_fields_readable_clip fields readable
      rw [height]
      omega
  | null, _, _ => Nat.zero_le _
  | bool _, _, _ => Nat.zero_le _
  | natural _, _, _ => Nat.zero_le _
  | numeral, _, _ => Nat.zero_le _
  | text _, _, _ => Nat.zero_le _
  | unreadable, _, _ => Nat.zero_le _

/-- Clipped items are readable throughout only if none was too high. -/
theorem items_height_le_of_all_readable_clip : ∀ (items : List Json) {room : Nat},
    allReadable (clipItems room items) = true → itemsHeight items ≤ room
  | [], _, _ => Nat.zero_le _
  | first :: rest, room, readable => by
    rw [clipItems, allReadable, Bool.and_eq_true] at readable
    rw [itemsHeight, Nat.max_le]
    exact ⟨height_le_of_is_readable_clip first readable.1,
      items_height_le_of_all_readable_clip rest readable.2⟩

/-- Clipped fields are readable throughout only if none was too high. -/
theorem fields_height_le_of_fields_readable_clip : ∀ (fields : List (String × Json)) {room : Nat},
    fieldsReadable (clipFields room fields) = true → fieldsHeight fields ≤ room
  | [], _, _ => Nat.zero_le _
  | (key, value) :: rest, room, readable => by
    rw [clipFields, fieldsReadable, Bool.and_eq_true] at readable
    rw [fieldsHeight, Nat.max_le]
    exact ⟨height_le_of_is_readable_clip value readable.1,
      fields_height_le_of_fields_readable_clip rest readable.2⟩

end

/-- A value begins with a token that ends no array. So an opening square bracket with a value behind
it cannot be taken for an empty array. -/
theorem exists_tokens_of (value : Json) :
    ∃ first rest, tokensOf value = first :: rest ∧ first ≠ .endArray := by
  cases value <;> exact ⟨_, _, rfl, by simp⟩

/-- Where an array may end, its first item is begun as any other value. The state behind an opening
bracket differs from that behind a comma in this one token only. -/
theorem foldlm_item_or_end (enclosing : List Enclosing) (first : Json) (rest : List Json)
    (more : List Token) :
    (itemTokens (first :: rest) ++ more).foldlM step ⟨enclosing, .itemOrEnd⟩ =
      (itemTokens (first :: rest) ++ more).foldlM step ⟨enclosing, .value⟩ := by
  obtain ⟨start, others, starts, goesOn⟩ := exists_tokens_of first
  obtain ⟨tail, spelled⟩ : ∃ tail, itemTokens (first :: rest) ++ more = start :: tail := by
    cases rest with
    | nil => exact ⟨others ++ more, by simp [itemTokens, starts]⟩
    | cons second rest => exact ⟨_, by simp [itemTokens, starts]; rfl⟩
  have begun : step ⟨enclosing, .itemOrEnd⟩ start = step ⟨enclosing, .value⟩ start := by
    cases start <;> first | rfl | exact absurd rfl goesOn
  rw [spelled, List.foldlM_cons, List.foldlM_cons, begun]

/-- Where an object may end, its first field is begun as any other field. -/
theorem foldlm_key_or_end (enclosing : List Enclosing) (key : String) (value : Json)
    (rest : List (String × Json)) (more : List Token) :
    (fieldTokens ((key, value) :: rest) ++ more).foldlM step ⟨enclosing, .keyOrEnd⟩ =
      (fieldTokens ((key, value) :: rest) ++ more).foldlM step ⟨enclosing, .key⟩ := by
  cases rest <;> rfl

/-- Fields that all have keys can be closed. Only keys that hold unreadable text would be missing,
and none of them is written. -/
theorem named_fields_map (fields : List (String × Json)) :
    namedFields (fields.map fun field => (some field.1, field.2)) = some fields := by
  induction fields with
  | nil => rfl
  | cons first rest inductionHypothesis =>
    simp [namedFields, inductionHypothesis]

/-- A closed array is clipped to the room that its enclosing values leave. When an array is closed,
as many brackets are open as there are enclosing values and one more. -/
theorem close_array_clip_items (outer : List Enclosing) (items : List Json) :
    closeArray outer (clipItems (depthLimit - (outer.length + 1)) items).reverse =
      deliver outer (clip (depthLimit - outer.length) (array items)) := by
  rw [closeArray, clip, List.reverse_reverse]
  by_cases room : outer.length < depthLimit
  · rw [if_pos room, if_neg (by omega), Nat.sub_sub]
  · rw [if_neg room, if_pos (by omega)]

/-- A closed object is clipped to the room that its enclosing values leave. -/
theorem close_object_clip_fields (outer : List Enclosing) (fields : List (String × Json)) :
    closeObject outer ((clipFields (depthLimit - (outer.length + 1)) fields).map
      fun field => (some field.1, field.2)).reverse =
      deliver outer (clip (depthLimit - outer.length) (object fields)) := by
  rw [closeObject, clip, List.reverse_reverse, named_fields_map]
  by_cases room : outer.length < depthLimit
  · rw [if_pos room, if_neg (by omega), Nat.sub_sub]
  · rw [if_neg room, if_pos (by omega)]

mutual

/-- The reader takes the tokens of a plain value and hands on the clipped value.

Proof: recursion on the value, together with the next two facts. The opening bracket is pushed, the
items or fields are read by the other facts, and the closing one delivers the clipped value to what
encloses it. Values without brackets are a single token. -/
theorem foldlm_tokens_of : ∀ (value : Json), value.isPlain = true →
    ∀ (enclosing : List Enclosing) (more : List Token),
      (tokensOf value ++ more).foldlM step ⟨enclosing, .value⟩ =
        more.foldlM step (deliver enclosing (clip (depthLimit - enclosing.length) value))
  | array [], _, enclosing, more => by
    rw [← close_array_clip_items]
    rfl
  | array (first :: rest), plain, enclosing, more => by
    have items := foldlm_item_tokens (first :: rest) plain (by simp) [] enclosing
      (.endArray :: more)
    rw [← foldlm_item_or_end, List.append_nil] at items
    rw [← close_array_clip_items, tokensOf, List.append_assoc]
    exact items
  | object [], _, enclosing, more => by
    rw [← close_object_clip_fields]
    rfl
  | object ((key, value) :: rest), plain, enclosing, more => by
    have fields := foldlm_field_tokens ((key, value) :: rest) plain (by simp) [] enclosing
      (.endObject :: more)
    rw [← foldlm_key_or_end, List.append_nil] at fields
    rw [← close_object_clip_fields, tokensOf, List.append_assoc]
    exact fields
  | null, _, _, _ => rfl
  | bool _, _, _, _ => rfl
  | natural _, _, _, _ => rfl
  | text _, _, _, _ => rfl
  | numeral, plain, _, _ => absurd plain (by decide)
  | unreadable, plain, _, _ => absurd plain (by decide)

/-- The reader takes the tokens of plain items and adds the clipped items to an array. The items
that are there already stand in reverse, as the reader keeps them. -/
theorem foldlm_item_tokens : ∀ (items : List Json), allPlain items = true → items ≠ [] →
    ∀ (done : List Json) (outer : List Enclosing) (more : List Token),
      (itemTokens items ++ more).foldlM step ⟨.array done :: outer, .value⟩ =
        more.foldlM step
          ⟨.array ((clipItems (depthLimit - (outer.length + 1)) items).reverse ++ done) :: outer,
            .commaOrEnd⟩
  | [], _, filled, _, _, _ => absurd rfl filled
  | [last], plain, _, done, outer, more => by
    have value :=
      foldlm_tokens_of last (by simpa [allPlain] using plain) (.array done :: outer) more
    rw [itemTokens, value]
    rfl
  | first :: second :: rest, plain, _, done, outer, more => by
    rw [allPlain, Bool.and_eq_true] at plain
    have value := foldlm_tokens_of first plain.1 (.array done :: outer)
      (.comma :: (itemTokens (second :: rest) ++ more))
    have later := foldlm_item_tokens (second :: rest) plain.2 (by simp)
      (clip (depthLimit - (outer.length + 1)) first :: done) outer more
    rw [itemTokens, List.append_assoc, List.cons_append, value, clipItems, List.reverse_cons,
      List.append_assoc]
    exact later

/-- The reader takes the tokens of plain fields and adds the clipped fields to an object. A key
waits in the enclosing object until its value has been delivered. -/
theorem foldlm_field_tokens : ∀ (fields : List (String × Json)), fieldsPlain fields = true →
    fields ≠ [] →
    ∀ (done : List (Option String × Json)) (outer : List Enclosing) (more : List Token),
      (fieldTokens fields ++ more).foldlM step ⟨.object done none :: outer, .key⟩ =
        more.foldlM step
          ⟨.object (((clipFields (depthLimit - (outer.length + 1)) fields).map
            fun field => (some field.1, field.2)).reverse ++ done) none :: outer, .commaOrEnd⟩
  | [], _, filled, _, _, _ => absurd rfl filled
  | [(key, value)], plain, _, done, outer, more => by
    have reads := foldlm_tokens_of value (by simpa [fieldsPlain] using plain)
      (.object done (some key) :: outer) more
    rw [fieldTokens]
    exact reads
  | (key, value) :: second :: rest, plain, _, done, outer, more => by
    rw [fieldsPlain, Bool.and_eq_true] at plain
    have reads := foldlm_tokens_of value plain.1 (.object done (some key) :: outer)
      (.comma :: (fieldTokens (second :: rest) ++ more))
    have later := foldlm_field_tokens (second :: rest) plain.2 (by simp)
      ((some key, clip (depthLimit - (outer.length + 1)) value) :: done) outer more
    rw [fieldTokens, List.append_assoc, List.cons_append, clipFields, List.map_cons,
      List.reverse_cons, List.append_assoc]
    exact reads.trans later

end

/-- A plain value is read back from its indented text, clipped to the brackets that may be open at
once.

Proof: the text is split into the tokens of the value, with nothing behind it. The reader takes them
from the empty stack and is left with the value, clipped to the whole limit. -/
theorem read_indented {value : Json} (plain : value.isPlain = true) :
    read value.indented = some (clip depthLimit value) := by
  have spelled := tokens_indented_chars value plain 0 (by simp [EndsNumeral] : EndsNumeral [])
  have nothing : tokens [] = some [] := by rw [tokens_eq]; rfl
  have reads := foldlm_tokens_of value plain [] []
  rw [List.append_nil] at spelled reads
  rw [read, indented, String.toList_ofList, spelled, nothing]
  simp [ofTokens, reads, deliver]

end DocGraph.Json
