import XChainSdk.Lib.Loop
import XChainSdk.Protocol.Formats

/-!
# Formats with repeated legs

The table writes a format of several legs with the slots of a leg spelled twice, and the wire
carries as many legs as it likes.

* `getRepeatedGroup` : the longest block that stands twice, with the slots around it.
* `Shape` : the three shapes of a format; `Shape.WellFormed` says that its names are distinct.
* `getFormatFields_shape` : **every format of the table has a shape, and its group is the shape's**.
-/

namespace XChainSdk

/-- `prefix | group | suffix` of a format of several legs. -/
structure RepeatedGroup where
  prefixSlots : List Slot
  groupSlots : List Slot
  suffixSlots : List Slot
  deriving DecidableEq

/-- A block of `size` slots at `start` stands twice, and holds only fields. -/
def repeatsAt (fields : List Slot) (size start : ℕ) : Bool :=
  let block := (fields.drop start).take size
  block.all (fun f => !f.isAuto && !f.isRestField) &&
    decide (block = (fields.drop (start + size)).take size)

/-- The longest such block, and the first of that length. -/
def findRepeat (fields : List Slot) : Option (ℕ × ℕ) :=
  ((List.range (fields.length / 2)).reverse.map (· + 1)).findSome? fun size =>
    ((List.range (fields.length - 2 * size + 1)).find? (repeatsAt fields size)).map (size, ·)

/-- `getRepeatedGroup`; it throws when a name stands twice outside of a group. -/
def getRepeatedGroup (fields : List Slot) : Option (Option RepeatedGroup) :=
  match findRepeat fields with
  | some (size, start) => some (some
      { prefixSlots := fields.take start
        groupSlots := (fields.drop start).take size
        suffixSlots := fields.drop (start + 2 * size) })
  | none => if (fields.filter fun f => !f.isAuto).Nodup then some none else none

/-- The shape of a format. -/
inductive Shape where
  | flat (names : List String)
  | rested (names : List String) (tail : String)
  | legged (lead group trail : List String)
  deriving DecidableEq

namespace Shape

/-- The slots of a shape. -/
def slots : Shape → List Slot
  | flat names => fixed names
  | rested names tail => variadic names tail
  | legged lead group trail => fixed (lead ++ group ++ group ++ trail)

/-- The names of a shape, each once. -/
def names : Shape → List String
  | flat names => names
  | rested names tail => names ++ [tail]
  | legged lead group trail => lead ++ group ++ trail

/-- The group of a shape. -/
def group? : Shape → Option RepeatedGroup
  | legged lead group trail => some ⟨fixed lead, group.map .field, trail.map .field⟩
  | _ => none

/-- No name stands for two slots, and a leg has slots. -/
def WellFormed (s : Shape) : Prop :=
  s.names.Nodup ∧ "VERSION" ∉ s.names ∧ ∀ lead group trail, s = legged lead group trail → group ≠ []

/-- The shape of the slots of a format. -/
def ofSlots (fields : List Slot) : Option Shape :=
  match getRepeatedGroup fields with
  | some (some g) =>
    some (legged (g.prefixSlots.drop 1 |>.map Slot.baseFieldName)
      (g.groupSlots.map Slot.baseFieldName) (g.suffixSlots.map Slot.baseFieldName))
  | some none =>
    match fields.getLast? with
    | some (.rest tail) => some (rested ((fields.drop 1).dropLast.map Slot.baseFieldName) tail)
    | _ => some (flat ((fields.drop 1).map Slot.baseFieldName))
  | none => none

/-- The slots are those of a well-formed shape with the same group. -/
def describes (fields : List Slot) (s : Shape) : Bool :=
  decide (fields = s.slots) && decide (getRepeatedGroup fields = some s.group?) &&
    decide s.names.Nodup && decide ("VERSION" ∉ s.names) &&
    match s with
    | legged _ group _ => !group.isEmpty
    | _ => true

theorem wellFormed_of_describes {fields : List Slot} {s : Shape} (h : describes fields s = true) :
    fields = s.slots ∧ getRepeatedGroup fields = some s.group? ∧ s.WellFormed := by
  simp only [describes, Bool.and_eq_true, decide_eq_true_eq] at h
  obtain ⟨⟨⟨⟨hslots, hgroup⟩, hnodup⟩, hversion⟩, hlegs⟩ := h
  refine ⟨hslots, hgroup, hnodup, hversion, ?_⟩
  rintro lead group trail rfl rfl
  cases hlegs

end Shape

/-- Every format of the table is described by its shape. -/
theorem formats_described : ∀ entry ∈ formats, ∀ format ∈ entry.2,
    (Shape.ofSlots format.2).any (Shape.describes format.2) = true := by decide

theorem getFormatFields_shape {action : String} {version : ℕ} {fields : List Slot}
    (h : getFormatFields action version = some fields) :
    ∃ s : Shape, fields = s.slots ∧ getRepeatedGroup fields = some s.group? ∧ s.WellFormed := by
  obtain ⟨versions, hversions, hfields⟩ := Option.bind_eq_some_iff.1 h
  have hany := formats_described _ (Loop.mem_of_lookup hversions) _ (Loop.mem_of_lookup hfields)
  obtain ⟨s, -, hs⟩ := (Option.any_eq_true _ _).1 hany
  exact ⟨s, Shape.wellFormed_of_describes hs⟩

end XChainSdk
