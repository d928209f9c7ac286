import SicXe.Json.Decode
import SicXe.Proofs.LiteralForms
import Mathlib.Data.List.Induction
import Mathlib.Data.List.Nodup

/-!
# The fields of JSON

A decoder takes the members of an object in turn and updates a value with each. What it accepts and
what it gives is told here without it, by paths into the JSON:

* `valuesAt`: the values at a path, in the order in which they are written.
* `Fits`: whether the values at the paths of a table are of the right kinds.
* `Checks`: a decoder accepts exactly the JSON that fits a table, whatever it updates.
* `Tracks`: a part of what a decoder gives is made from the values at a path. In a record, no other
  place may touch the part (`Apart`). For texts and numbers the last value that is not null counts
  (`foldl_keep`).
* `wholeNumber?_signedDecimal`: a number is read as it is written.
* `Recalls`: what the places of a list hold after several lists were read over each other.
-/

namespace SicXe.Json

variable {α β γ : Type}

/-! ## Paths -/

/-- A step into JSON. -/
inductive Step where
  /-- To the members with a name, in any case. -/
  | member (name : String)
  /-- To the items of a list. -/
  | items

/-- Where a step leads. -/
def children : Step → Json → List Json
  | .member name, .object members =>
    (members.filter fun member => foldName (Text.ofString name) == foldName member.1).map (·.2)
  | .items, .array items => items
  | _, _ => []

/-- The values at a path, in the order in which they are written. -/
def valuesAt : List Step → Json → List Json
  | [], json => [json]
  | step :: path, json => (children step json).flatMap (valuesAt path)

theorem valuesAt_step (step : Step) (json : Json) : valuesAt [step] json = children step json :=
  List.flatMap_singleton' _

theorem mem_children_of_member? {name : String} {json value : Json}
    (h : json.member? name = some value) : value ∈ children (.member name) json := by
  cases json with
  | object members =>
    obtain ⟨member, hfind, rfl⟩ := Option.map_eq_some_iff.1 h
    have hname : member.1 = Text.ofString name := by simpa using List.find?_some hfind
    refine List.mem_map_of_mem (List.mem_filter.2 ⟨?_, by simp [hname]⟩)
    exact List.mem_reverse.1 (List.mem_of_find?_eq_some hfind)
  | _ => cases h

/-- The member at a path of names; of several members with a name the last one counts. -/
def reach? : List String → Json → Option Json
  | [], json => some json
  | name :: names, json => (json.member? name).bind (reach? names)

/-! ## Kinds -/

/-- The kinds of values that decoders tell apart. -/
inductive Kind where
  | record
  | list
  | text
  | whole

/-- Whether a value is of a kind. Null is of every kind, and a whole number has 64 bits. -/
def Kind.admits : Kind → Json → Bool
  | _, .null => true
  | .record, .object _ => true
  | .list, .array _ => true
  | .text, .string _ => true
  | .whole, .number literal => (wholeNumber? literal).isSome
  | _, _ => false

/-- Paths, each with the kind of the values there. -/
abbrev Shape := List (List Step × Kind)

/-- All values at the paths of a shape are of the right kinds. -/
def Fits (shape : Shape) (json : Json) : Prop :=
  ∀ entry ∈ shape, ∀ value ∈ valuesAt entry.1 json, entry.2.admits value = true

instance (shape : Shape) (json : Json) : Decidable (Fits shape json) :=
  inferInstanceAs (Decidable (∀ entry ∈ shape, ∀ value ∈ valuesAt entry.1 json, _))

namespace Shape

/-- A shape for where a step leads. -/
def under (step : Step) (shape : Shape) : Shape :=
  shape.map fun entry => (step :: entry.1, entry.2)

def text : Shape := [([], .text)]

def whole : Shape := [([], .whole)]

def list (item : Shape) : Shape := ([], .list) :: item.under .items

/-- An object with the given members; others do not matter. -/
def record (fields : List (String × Shape)) : Shape :=
  ([], .record) :: fields.flatMap fun field => field.2.under (.member field.1)

end Shape

theorem fits_cons {entry : List Step × Kind} {shape : Shape} {json : Json} :
    Fits (entry :: shape) json ↔
      (∀ value ∈ valuesAt entry.1 json, entry.2.admits value = true) ∧ Fits shape json :=
  List.forall_mem_cons

theorem fits_kind {kind : Kind} {json : Json} :
    Fits [([], kind)] json ↔ kind.admits json = true := by
  simp [Fits, valuesAt]

theorem fits_under {step : Step} {shape : Shape} {json : Json} :
    Fits (shape.under step) json ↔ ∀ child ∈ children step json, Fits shape child := by
  simp only [Fits, Shape.under, List.forall_mem_map, valuesAt, List.mem_flatMap]
  constructor
  · intro h child hchild entry hentry value hvalue
    exact h entry hentry value ⟨child, hchild, hvalue⟩
  · rintro h entry hentry value ⟨child, hchild, hvalue⟩
    exact h child hchild entry hentry value hvalue

theorem fits_list {item : Shape} {json : Json} :
    Fits (.list item) json ↔
      Kind.list.admits json = true ∧ ∀ child ∈ children .items json, Fits item child := by
  rw [Shape.list, fits_cons, fits_under]
  simp [valuesAt]

theorem fits_record {fields : List (String × Shape)} {json : Json} :
    Fits (.record fields) json ↔ Kind.record.admits json = true ∧
      ∀ field ∈ fields, ∀ child ∈ children (.member field.1) json, Fits field.2 child := by
  have hfields : Fits (fields.flatMap fun field => field.2.under (.member field.1)) json ↔
      ∀ field ∈ fields, Fits (field.2.under (.member field.1)) json := by
    simp only [Fits, List.mem_flatMap]
    constructor
    · intro h field hfield entry hentry
      exact h entry ⟨field, hfield, hentry⟩
    · rintro h entry ⟨field, hfield, hentry⟩
      exact h field hfield entry hentry
  rw [Shape.record, fits_cons, hfields]
  simp only [valuesAt, List.mem_singleton, forall_eq, fits_under]

/-! ## What decoders accept -/

/-- A decoder accepts the JSON that fits a shape, whatever it updates. -/
def Checks (decode : Decoder α) (shape : Shape) : Prop :=
  ∀ held json, (decode held json).isSome = true ↔ Fits shape json

theorem checks_string : Checks decodeString .text := by
  intro held json
  rw [Shape.text, fits_kind]
  cases json <;> simp [decodeString, Kind.admits]

theorem checks_int : Checks decodeInt .whole := by
  intro held json
  rw [Shape.whole, fits_kind]
  cases json <;> simp [decodeInt, Kind.admits]

/-- A decoder that accepts everything. -/
theorem checks_any (update : α → Json → α) :
    Checks (fun held json => some (update held json)) [] :=
  fun _ _ => iff_of_true rfl fun _ hentry => absurd hentry List.not_mem_nil

/-- A decoder for a part of a value. -/
theorem Checks.part {decode : Decoder α} {shape : Shape} (h : Checks decode shape) (get : β → α)
    (set : β → α → β) :
    Checks (fun held json => (decode (get held) json).map (set held)) shape := by
  intro held json
  rw [Option.isSome_map]
  exact h (get held) json

/-! ## Records -/

/-- The names of places, told apart without regard to case. -/
def DistinctNames (places : List (Place α)) : Prop :=
  (places.map fun place => foldName (Text.ofString place.name)).Nodup

instance (places : List (Place α)) : Decidable (DistinctNames places) :=
  inferInstanceAs (Decidable (List.Nodup _))

/-- The place that a member updates. -/
theorem find?_place {places : List (Place α)} (hnames : DistinctNames places) {name : Text}
    {place : Place α} :
    places.find? (fun place => foldName (Text.ofString place.name) == foldName name) = some place ↔
      place ∈ places ∧ foldName (Text.ofString place.name) = foldName name := by
  constructor
  · intro hfind
    exact ⟨List.mem_of_find?_eq_some hfind, by simpa using List.find?_some hfind⟩
  · rintro ⟨hmem, hname⟩
    cases hfind : places.find? fun place =>
        foldName (Text.ofString place.name) == foldName name with
    | none => simpa [hname] using List.find?_eq_none.1 hfind place hmem
    | some other =>
      have hother : foldName (Text.ofString other.name) = foldName name := by
        simpa using List.find?_some hfind
      rw [List.inj_on_of_nodup_map hnames (List.mem_of_find?_eq_some hfind) hmem
        (hother.trans hname.symm)]

theorem children_cons_of_eq {name : String} {other : Text} {value : Json}
    {members : List (Text × Json)} (h : foldName (Text.ofString name) = foldName other) :
    children (.member name) (.object ((other, value) :: members)) =
      value :: children (.member name) (.object members) := by
  simp [children, h]

theorem children_cons_of_ne {name : String} {other : Text} {value : Json}
    {members : List (Text × Json)} (h : foldName (Text.ofString name) ≠ foldName other) :
    children (.member name) (.object ((other, value) :: members)) =
      children (.member name) (.object members) := by
  simp [children, h]

/-- The places of a record, with the names and the shapes of its members. -/
inductive Typed : List (Place α) → List (String × Shape) → Prop where
  | nil : Typed [] []
  | cons {place : Place α} {shape : Shape} {places : List (Place α)}
      {fields : List (String × Shape)} (hplace : Checks place.update shape)
      (hplaces : Typed places fields) : Typed (place :: places) ((place.name, shape) :: fields)

theorem Typed.field_of_place {places : List (Place α)} {fields : List (String × Shape)}
    (h : Typed places fields) {place : Place α} (hmem : place ∈ places) :
    ∃ field ∈ fields, field.1 = place.name ∧ Checks place.update field.2 := by
  induction h with
  | nil => cases hmem
  | cons hplace hplaces ih =>
    rcases List.mem_cons.1 hmem with rfl | hmem
    · exact ⟨_, List.mem_cons_self, rfl, hplace⟩
    · obtain ⟨field, hfield, h⟩ := ih hmem
      exact ⟨field, List.mem_cons_of_mem _ hfield, h⟩

theorem Typed.place_of_field {places : List (Place α)} {fields : List (String × Shape)}
    (h : Typed places fields) {field : String × Shape} (hmem : field ∈ fields) :
    ∃ place ∈ places, place.name = field.1 ∧ Checks place.update field.2 := by
  induction h with
  | nil => cases hmem
  | cons hplace hplaces ih =>
    rcases List.mem_cons.1 hmem with rfl | hmem
    · exact ⟨_, List.mem_cons_self, rfl, hplace⟩
    · obtain ⟨place, hmem, h⟩ := ih hmem
      exact ⟨place, List.mem_cons_of_mem _ hmem, h⟩

/-- Members are accepted if each is what its place asks for. -/
theorem Typed.isSome_decodeMembers {places : List (Place α)} {fields : List (String × Shape)}
    (h : Typed places fields) (hnames : DistinctNames places) (held : α)
    (members : List (Text × Json)) :
    (decodeMembers places held members).isSome = true ↔ ∀ field ∈ fields,
      ∀ child ∈ children (.member field.1) (.object members), Fits field.2 child := by
  induction members generalizing held with
  | nil => simp [decodeMembers, children]
  | cons member members ih =>
    obtain ⟨name, value⟩ := member
    rw [decodeMembers]
    cases hfind : places.find? fun place =>
        foldName (Text.ofString place.name) == foldName name with
    | none =>
      have hnone := List.find?_eq_none.1 hfind
      rw [ih]
      refine forall₂_congr fun field hfield => ?_
      obtain ⟨place, hplace, hname, -⟩ := h.place_of_field hfield
      rw [children_cons_of_ne (by simpa [hname] using hnone place hplace)]
    | some place =>
      obtain ⟨hmem, hname⟩ := (find?_place hnames).1 hfind
      dsimp only
      cases hupdate : place.update held value with
      | none =>
        refine iff_of_false Bool.false_ne_true fun hfits => ?_
        obtain ⟨field, hfield, hfieldName, hchecks⟩ := h.field_of_place hmem
        have hvalue : Fits field.2 value := by
          apply hfits field hfield
          rw [hfieldName, children_cons_of_eq hname]
          exact List.mem_cons_self
        have hsome := (hchecks held value).2 hvalue
        rw [hupdate] at hsome
        cases hsome
      | some held' =>
        dsimp only
        rw [ih]
        refine forall₂_congr fun field hfield => ?_
        obtain ⟨other, hother, hotherName, hchecks⟩ := h.place_of_field hfield
        by_cases hsame : foldName (Text.ofString field.1) = foldName name
        · -- the member belongs to this field, and its value was accepted
          rw [← hotherName] at hsame
          have heq : other = place :=
            Option.some.inj (((find?_place hnames).2 ⟨hother, hsame⟩).symm.trans hfind)
          have hfits : Fits field.2 value := by
            rw [← hchecks held value, heq, hupdate]
            rfl
          rw [← hotherName, children_cons_of_eq hsame, List.forall_mem_cons, and_iff_right hfits]
        · rw [children_cons_of_ne hsame]

/-- A record is accepted if the values of its members are. -/
theorem Checks.record {places : List (Place α)} {fields : List (String × Shape)}
    (hnames : DistinctNames places) (h : Typed places fields) :
    Checks (decodeRecord places) (.record fields) := by
  intro held json
  rw [fits_record]
  cases json with
  | object members =>
    refine Iff.trans ?_ (and_iff_right rfl).symm
    exact h.isSome_decodeMembers hnames held members
  | _ => simp [decodeRecord, Kind.admits, children]

/-! ## Lists -/

theorem isSome_decodeItems {fresh : α} {decode : Decoder α} {item : Shape}
    (h : Checks decode item) (held : List α) (items : List Json) :
    (decodeItems fresh decode held items).isSome = true ↔ ∀ json ∈ items, Fits item json := by
  induction items generalizing held with
  | nil => simp [decodeItems]
  | cons json items ih =>
    have hchecks := h (held.head?.getD fresh) json
    rw [decodeItems, List.forall_mem_cons, ← hchecks, ← ih held.tail]
    cases decode (held.head?.getD fresh) json with
    | none => simp
    | some value => cases decodeItems fresh decode held.tail items <;> simp

/-- A list is accepted if its items are. -/
theorem Checks.list {decode : Decoder α} {item : Shape} (h : Checks decode item) (fresh : α) :
    Checks (decodeList fresh decode) (.list item) := by
  intro held json
  rw [fits_list]
  cases json with
  | array items =>
    refine Iff.trans ?_ (and_iff_right rfl).symm
    cases items with
    | nil => simp [decodeList, children]
    | cons json items => exact isSome_decodeItems h _ _
  | _ => simp [decodeList, Kind.admits, children]

/-- Null is as good as any value that may be absent. -/
theorem Checks.option {decode : Decoder α} {shape : Shape} (h : Checks decode shape)
    (hnull : Fits shape .null) (fresh : α) : Checks (decodeOption fresh decode) shape := by
  intro held json
  cases json with
  | null => simp [decodeOption, hnull]
  | _ =>
    rw [← h (held.getD fresh), decodeOption, Option.isSome_map]
    exact nofun

/-! ## What decoders give -/

/-- A part of what a decoder gives is updated by the values at a path. -/
def Tracks (decode : Decoder α) (part : α → β) (path : List Step) (update : β → Json → β) : Prop :=
  ∀ held json held', decode held json = some held' →
    part held' = (valuesAt path json).foldl update (part held)

/-- A decoder does not touch a part. -/
def Spares (decode : Decoder α) (part : α → β) : Prop :=
  ∀ held json held', decode held json = some held' → part held' = part held

/-- The value that is read, or else what was there. -/
def keep (read : Json → Option β) (held : β) (json : Json) : β := (read json).getD held

def text? : Json → Option Text
  | .string s => some s
  | _ => none

def whole? : Json → Option Int
  | .number literal => wholeNumber? literal
  | _ => none

/-- The last value that can be read counts. -/
theorem foldl_keep (read : Json → Option β) (values : List Json) (held : β) :
    values.foldl (keep read) held = (values.filterMap read).getLast?.getD held := by
  induction values generalizing held with
  | nil => rfl
  | cons value values ih =>
    rw [List.foldl_cons, ih, keep]
    cases hread : read value with
    | none => rw [List.filterMap_cons_none hread, Option.getD_none]
    | some found =>
      rw [List.filterMap_cons_some hread, List.getLast?_cons]
      rfl

/-- The last text at a path of names; without one it is empty. -/
def textAt (names : List String) (json : Json) : Text :=
  ((valuesAt (names.map .member) json).filterMap text?).getLast?.getD []

/-- The last whole number at a path of names; without one it is zero. -/
def wholeAt (names : List String) (json : Json) : Int :=
  ((valuesAt (names.map .member) json).filterMap whole?).getLast?.getD 0

theorem tracks_self (decode : Decoder α) :
    Tracks decode id [] fun held value => (decode held value).getD held := by
  intro held json held' h
  simp [valuesAt, h]

theorem tracks_string : Tracks decodeString id [] (keep text?) := by
  intro held json held' h
  cases json <;> simp_all [decodeString, valuesAt, keep, text?]

theorem tracks_int : Tracks decodeInt id [] (keep whole?) := by
  intro held json held' h
  cases json <;> simp_all [decodeInt, valuesAt, keep, whole?]

theorem Tracks.eq_textAt {decode : Decoder α} {part : α → Text} (names : List String)
    (h : Tracks decode part (names.map .member) (keep text?)) {held held' : α} {json : Json}
    (hdecode : decode held json = some held') (hheld : part held = []) :
    part held' = textAt names json := by
  rw [h _ _ _ hdecode, hheld, foldl_keep]
  rfl

theorem Tracks.eq_wholeAt {decode : Decoder α} {part : α → Int} (names : List String)
    (h : Tracks decode part (names.map .member) (keep whole?)) {held held' : α} {json : Json}
    (hdecode : decode held json = some held') (hheld : part held = 0) :
    part held' = wholeAt names json := by
  rw [h _ _ _ hdecode, hheld, foldl_keep]
  rfl

/-- A part of a part. -/
theorem Tracks.part {decode : Decoder α} {part : α → β} {path : List Step}
    {update : β → Json → β} (h : Tracks decode part path update) {get : γ → α} {set : γ → α → γ}
    {whole : γ → β} (hget : ∀ held, whole held = part (get held))
    (hset : ∀ held value, whole (set held value) = part value) :
    Tracks (fun held json => (decode (get held) json).map (set held)) whole path update := by
  intro held json held' hdecode
  obtain ⟨value, hvalue, rfl⟩ := Option.map_eq_some_iff.1 hdecode
  rw [hset, hget]
  exact h _ _ _ hvalue

theorem spares_part {decode : Decoder α} {get : γ → α} {set : γ → α → γ} {whole : γ → β}
    (hset : ∀ held value, whole (set held value) = whole held) :
    Spares (fun held json => (decode (get held) json).map (set held)) whole := by
  intro held json held' hdecode
  obtain ⟨value, -, rfl⟩ := Option.map_eq_some_iff.1 hdecode
  exact hset held value

/-- A decoder that accepts everything updates a part, or does not touch it. -/
theorem tracks_any {update : α → Json → α} {part : α → β} {change : β → Json → β}
    (h : ∀ held json, part (update held json) = change (part held) json) :
    Tracks (fun held json => some (update held json)) part [] change := by
  intro held json held' hdecode
  cases hdecode
  exact h held json

theorem spares_any {update : α → Json → α} {part : α → β}
    (h : ∀ held json, part (update held json) = part held) :
    Spares (fun held json => some (update held json)) part := by
  intro held json held' hdecode
  cases hdecode
  exact h held json

/-- Of these places only one with the given name may touch a part. -/
inductive Apart (part : α → β) (name : String) : List (Place α) → Prop where
  | nil : Apart part name []
  | self {place : Place α} {places : List (Place α)} (hname : place.name = name)
      (hplaces : Apart part name places) : Apart part name (place :: places)
  | other {place : Place α} {places : List (Place α)} (hspares : Spares place.update part)
      (hplaces : Apart part name places) : Apart part name (place :: places)

theorem Apart.spares {part : α → β} {name : String} {places : List (Place α)}
    (h : Apart part name places) {other : Place α} (hother : other ∈ places)
    (hne : other.name ≠ name) : Spares other.update part := by
  induction h with
  | nil => cases hother
  | self hname hplaces ih =>
    rcases List.mem_cons.1 hother with rfl | hother
    · exact absurd hname hne
    · exact ih hother
  | other hspares hplaces ih =>
    rcases List.mem_cons.1 hother with rfl | hother
    · exact hspares
    · exact ih hother

theorem Apart.subset {part : α → β} {name : String} {places inner : List (Place α)}
    (h : Apart part name places) (hinner : inner ⊆ places) : Apart part name inner := by
  induction inner with
  | nil => exact .nil
  | cons place inner ih =>
    have hrest := ih fun other hother => hinner (List.mem_cons_of_mem _ hother)
    by_cases hname : place.name = name
    · exact .self hname hrest
    · exact .other (h.spares (hinner List.mem_cons_self) hname) hrest

/-- In a record the members with one name update a part that the other places do not touch. -/
theorem Tracks.record {places : List (Place α)} (hnames : DistinctNames places) {place : Place α}
    (hplace : place ∈ places) {part : α → β} {path : List Step} {update : β → Json → β}
    (h : Tracks place.update part path update) (hothers : Apart part place.name places) :
    Tracks (decodeRecord places) part (.member place.name :: path) update := by
  intro held json held' hdecode
  cases json with
  | null =>
    cases hdecode
    rfl
  | object members =>
    rw [decodeRecord] at hdecode
    rw [valuesAt]
    induction members generalizing held with
    | nil =>
      cases hdecode
      rfl
    | cons member members ih =>
      obtain ⟨name, value⟩ := member
      rw [decodeMembers] at hdecode
      by_cases hname : foldName (Text.ofString place.name) = foldName name
      · rw [(find?_place hnames).2 ⟨hplace, hname⟩] at hdecode
        dsimp only at hdecode
        rw [children_cons_of_eq hname, List.flatMap_cons, List.foldl_append]
        cases hupdate : place.update held value with
        | none =>
          rw [hupdate] at hdecode
          cases hdecode
        | some next =>
          rw [hupdate] at hdecode
          rw [← h held value next hupdate]
          exact ih next hdecode
      · rw [children_cons_of_ne hname]
        cases hfind : places.find? fun place =>
            foldName (Text.ofString place.name) == foldName name with
        | none =>
          rw [hfind] at hdecode
          exact ih held hdecode
        | some other =>
          rw [hfind] at hdecode
          dsimp only at hdecode
          obtain ⟨hother, hsame⟩ := (find?_place hnames).1 hfind
          have hne : other.name ≠ place.name := fun heq => hname (heq ▸ hsame)
          cases hupdate : other.update held value with
          | none =>
            rw [hupdate] at hdecode
            cases hdecode
          | some next =>
            rw [hupdate] at hdecode
            rw [← hothers.spares hother hne held value next hupdate]
            exact ih next hdecode
  | _ => cases hdecode

/-! ## Numbers -/

theorem splitSign_signedDecimal (n : Int) :
    Numeral.splitSign (Numeral.signedDecimal n) = (decide (n < 0), Numeral.decimal n.natAbs) := by
  unfold Numeral.signedDecimal
  split
  case isTrue hn =>
    rw [decide_eq_true hn]
    rfl
  case isFalse hn =>
    rw [decide_eq_false hn]
    obtain ⟨b, t, hdecimal⟩ : ∃ b t, Numeral.decimal n.natAbs = b :: t :=
      List.exists_cons_of_ne_nil (Numeral.digitsBefore_ne_nil (.inl (Nat.succ_ne_zero _)))
    obtain ⟨d, hd, rfl⟩ := Numeral.mem_digits (by decide) (hdecimal ▸ List.mem_cons_self)
    have hdigit : ∀ d < 10, Numeral.digit? 10 (Numeral.upperDigit d) = some d := by decide
    rw [hdecimal]
    exact Numeral.splitSign_of_digits (hdigit d hd) t

/-- **A whole number** of 64 bits is read as it is written. -/
theorem wholeNumber?_signedDecimal {n : Int} (hlow : -2 ^ 63 ≤ n) (hhigh : n < 2 ^ 63) :
    wholeNumber? (Numeral.signedDecimal n) = some n := by
  have hdigit : ∀ d < 10, Numeral.digit? 10 (Numeral.upperDigit d) = some d := by decide
  have hne : Numeral.decimal n.natAbs ≠ [] :=
    Numeral.digitsBefore_ne_nil (.inl (Nat.succ_ne_zero _))
  have hall : (Numeral.decimal n.natAbs).all (fun b => (Numeral.digit? 10 b).isSome) = true := by
    rw [List.all_eq_true]
    intro b hb
    obtain ⟨d, hd, rfl⟩ := Numeral.mem_digits (by decide) hb
    rw [hdigit d hd]
    rfl
  have hvalue : (Numeral.decimal n.natAbs).foldl
      (fun n b => n * 10 + (Numeral.digit? 10 b).getD 0) 0 = n.natAbs := by
    refine Numeral.foldl_digitsBefore (by decide) (fun d hd => ?_) [] (Nat.lt_succ_self _)
    rw [hdigit d hd]
    rfl
  have hsign : (if decide (n < 0) = true then -(n.natAbs : Int) else n.natAbs) = n := by
    split
    case isTrue hn => have := of_decide_eq_true hn; omega
    case isFalse hn => have := of_decide_eq_false (Bool.not_eq_true _ ▸ hn); omega
  simp only [wholeNumber?, splitSign_signedDecimal]
  rw [if_pos ⟨hne, hall⟩, hvalue, hsign, if_pos ⟨by omega, by omega⟩]

/-! ## Lists over each other -/

/-- The items of a list; null has none. -/
def itemsOf : Json → List Json
  | .array items => items
  | _ => []

/-- The lists that were read since one was null or empty, the last one first. -/
def sinceEmpty (values : List Json) : List (List Json) :=
  (values.reverse.map itemsOf).takeWhile (!·.isEmpty)

theorem sinceEmpty_concat (values : List Json) (value : Json) :
    sinceEmpty (values ++ [value]) =
      if (itemsOf value).isEmpty then [] else itemsOf value :: sinceEmpty values := by
  rw [sinceEmpty, List.reverse_append, List.reverse_singleton, List.singleton_append,
    List.map_cons, List.takeWhile_cons]
  cases (itemsOf value).isEmpty <;> rfl

theorem ne_nil_of_mem_sinceEmpty {values : List Json} {items : List Json}
    (h : items ∈ sinceEmpty values) : items ≠ [] := by
  have hall := List.all_eq_true.1 List.all_takeWhile items h
  simpa using hall

/-- What the places of a list hold after lists were read, the last one first: the items that count
are as many as the last list has, and every place holds what was last read there. -/
structure Recalls (fresh : α) (read : Json → Option α) (slots : Slots α)
    (lists : List (List Json)) : Prop where
  length : slots.items.length = (lists.head?.getD []).length
  held : ∀ i : Nat, (slots.items ++ slots.left)[i]?.getD fresh =
    (lists.findSome? fun items => items[i]?.bind read).getD fresh

/-- Items are read over what stood at their places, and the other places are left alone. -/
theorem decodeItems_spec {fresh : α} {decode : Decoder α} {read : Json → Option α}
    (hread : ∀ held json held', decode held json = some held' → held' = (read json).getD held)
    {held : List α} {items : List Json} {slots : Slots α}
    (h : decodeItems fresh decode held items = some slots) :
    slots.items.length = items.length ∧ ∀ i : Nat, (slots.items ++ slots.left)[i]?.getD fresh =
      (items[i]?.bind read).getD (held[i]?.getD fresh) := by
  induction items generalizing held slots with
  | nil =>
    cases h
    exact ⟨rfl, fun i => rfl⟩
  | cons json items ih =>
    obtain ⟨value, hvalue, h⟩ := Option.bind_eq_some_iff.1 h
    obtain ⟨rest, hrest, hslots⟩ := Option.bind_eq_some_iff.1 h
    cases hslots
    obtain ⟨hlength, hheld⟩ := ih hrest
    refine ⟨by simp [hlength], fun i => ?_⟩
    cases i with
    | zero =>
      have hfirst := hread _ _ _ hvalue
      cases held <;> simpa using hfirst
    | succ i =>
      have hnext := hheld i
      cases held <;> simpa using hnext

/-- **One more list.** -/
theorem Recalls.step {fresh : α} {decode : Decoder α} {read : Json → Option α}
    (hread : ∀ held json held', decode held json = some held' → held' = (read json).getD held)
    {slots slots' : Slots α} {values : List Json} {value : Json}
    (h : Recalls fresh read slots (sinceEmpty values))
    (hdecode : decodeList fresh decode slots value = some slots') :
    Recalls fresh read slots' (sinceEmpty (values ++ [value])) := by
  have hempty (hslots : slots' = {}) (hitems : itemsOf value = []) :
      Recalls fresh read slots' (sinceEmpty (values ++ [value])) := by
    rw [sinceEmpty_concat, hitems, hslots]
    exact ⟨rfl, fun i => rfl⟩
  cases value with
  | null => exact hempty (Option.some.inj hdecode).symm rfl
  | array items =>
    cases items with
    | nil => exact hempty (Option.some.inj hdecode).symm rfl
    | cons json items =>
      obtain ⟨hlength, hheld⟩ := decodeItems_spec hread hdecode
      rw [sinceEmpty_concat]
      refine ⟨hlength, fun i => ?_⟩
      rw [hheld, h.held]
      show _ = (List.findSome? _ ((json :: items) :: sinceEmpty values)).getD fresh
      rw [List.findSome?_cons]
      cases (json :: items)[i]?.bind read <;> rfl
  | _ => cases hdecode

/-- **Lists that are read one after the other.** -/
theorem recalls_foldl {fresh : α} {decode : Decoder α} {read : Json → Option α}
    (hread : ∀ held json held', decode held json = some held' → held' = (read json).getD held)
    {values : List Json}
    (haccept : ∀ value ∈ values, ∀ held, (decodeList fresh decode held value).isSome = true) :
    Recalls fresh read
      (values.foldl (fun held value => (decodeList fresh decode held value).getD held) {})
      (sinceEmpty values) := by
  -- from the last list back: what was read before it stands in `values`
  induction values using List.reverseRecOn with
  | nil => exact ⟨rfl, fun i => rfl⟩
  | append_singleton values value ih =>
    rw [List.foldl_append, List.foldl_cons, List.foldl_nil]
    have hbefore := ih fun value hvalue => haccept value (List.mem_append_left _ hvalue)
    have hlast := haccept value (List.mem_append_right _ List.mem_cons_self)
    generalize values.foldl _ _ = slots at hbefore ⊢
    obtain ⟨slots', hslots'⟩ := Option.isSome_iff_exists.1 (hlast slots)
    rw [hslots']
    exact hbefore.step hread hslots'

/-- The last item that counts. -/
theorem Recalls.getLast? {fresh : α} {read : Json → Option α} {slots : Slots α}
    {values : List Json} (h : Recalls fresh read slots (sinceEmpty values)) :
    slots.items.getLast? = (sinceEmpty values).head?.map fun last => Option.getD
      ((sinceEmpty values).findSome? fun items => items[last.length - 1]?.bind read) fresh := by
  have hlists : ∀ items ∈ sinceEmpty values, items ≠ [] := fun _ => ne_nil_of_mem_sinceEmpty
  generalize sinceEmpty values = lists at h hlists ⊢
  cases lists with
  | nil =>
    have hnil : slots.items = [] := List.eq_nil_of_length_eq_zero h.length
    rw [hnil]
    rfl
  | cons last lists =>
    have hlength : slots.items.length = last.length := h.length
    have hpos : 0 < last.length := List.length_pos_iff.2 (hlists last List.mem_cons_self)
    have hlt : last.length - 1 < slots.items.length := by omega
    have hheld := h.held (last.length - 1)
    rw [List.getElem?_append_left hlt, List.getElem?_eq_getElem hlt, Option.getD_some] at hheld
    rw [List.getLast?_eq_getElem?, hlength, List.getElem?_eq_getElem hlt, hheld]
    rfl

end SicXe.Json
