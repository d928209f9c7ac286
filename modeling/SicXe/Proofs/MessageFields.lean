import SicXe.Proofs.EditorRequests
import SicXe.Proofs.JsonFields

/-!
# What a message tells

A request is read with decoders, one place after the other. Here a message is read without them, by
the paths at which things stand in it:

* `fields?`: the parameters, if everything in them is of the right kind.
* `uri?`, `told?`: the document that a message is about, and the edit that it tells of.
* `lastChange?`: the text of the last change.
* `told?_opened`, `told?_changed`, `told?_closed`: the edits in messages as editors write them.
* `Conveys`: a request has the method and the parameters of a message. Then the decoders find in
  the request what the message tells: `Conveys.uri?`, `Conveys.edit?`, `Conveys.place`.
-/

namespace SicXe.Editor

open Json (Shape Fits Checks Tracks Apart DistinctNames textAt wholeAt spares_part)

namespace Message

/-! ## Reading a message -/

/-- The method of a message. -/
def method? (message : Json) : Option Text := (message.member? "method").bind Json.text?

/-- Whether a message has a method. -/
def hasMethod (message : Json) (method : Text) : Bool := method? message == some method

/-- What the parameters of a method have to be; the other methods need none. -/
def shapeFor? (method : Text) : Option Shape :=
  if method = "initialize" then
    some (.record [("processId", .whole), ("initializationOptions", .record [("mode", .text)])])
  else if method = "textDocument/didOpen" then
    some (.record [("textDocument",
      .record [("uri", .text), ("languageId", .text), ("version", .whole), ("text", .text)])])
  else if method = "textDocument/didChange" then
    some (.record [("textDocument", .record [("uri", .text), ("version", .whole)]),
      ("contentChanges", .list (.record [("text", .text)]))])
  else if method = "textDocument/didClose" then
    some (.record [("textDocument", .record [("uri", .text)])])
  else if method = "textDocument/diagnostic" then
    some (.record [("textDocument", .record [("uri", .text)])])
  else if method = "textDocument/hover" then
    some (.record [("textDocument", .record [("uri", .text)]),
      ("position", .record [("line", .whole), ("character", .whole)])])
  else none

/-- Whether the method of a message needs parameters. -/
def needsFields (message : Json) : Bool := ((method? message).bind shapeFor?).isSome

/-- The parameters of a message, if they are what its method needs. -/
def fields? (message : Json) : Option Json :=
  ((method? message).bind shapeFor?).bind fun shape =>
    ((message.member? "params").map Json.canonical).filter fun params => Fits shape params

/-- The document that a message is about. -/
def uri? (message : Json) : Option Text :=
  if hasMethod message "initialize" then none
  else (fields? message).map (textAt ["textDocument", "uri"])

/-- The text of a change, if it has one. -/
def changeText? (change : Json) : Option Text :=
  ((Json.valuesAt [.member "text"] change).filterMap Json.text?).getLast?

/-- The text of the last change. A change without a text has the one of an earlier list at the same
place, if the list of changes is repeated, and else it is empty. -/
def lastChange? (params : Json) : Option Text :=
  let lists := Json.sinceEmpty (Json.valuesAt [.member "contentChanges"] params)
  lists.head?.map fun last =>
    (lists.findSome? fun changes => changes[last.length - 1]?.bind changeText?).getD []

/-- The edit that a message tells of: opening a document tells its text, changing it the text of the
last change. -/
def told? (message : Json) : Option Edit :=
  (fields? message).bind fun params =>
    let uri := textAt ["textDocument", "uri"] params
    let version := wholeAt ["textDocument", "version"] params
    if hasMethod message "textDocument/didOpen" then
      some (.write uri version (textAt ["textDocument", "text"] params))
    else if hasMethod message "textDocument/didChange" then
      (lastChange? params).map (.write uri version)
    else if hasMethod message "textDocument/didClose" then some (.close uri)
    else none

/-- Whether parameters have changes: the last list of changes is not empty. -/
def hasChanges (params : Json) : Bool :=
  (Json.valuesAt [.member "contentChanges"] params).getLast?.any fun changes =>
    !(Json.itemsOf changes).isEmpty

/-- Whether a message gives a document a text: it opens it, or changes it at least once, and its
parameters can be read. -/
def givesText (message : Json) : Bool :=
  (fields? message).any fun params =>
    hasMethod message "textDocument/didOpen" ||
      hasMethod message "textDocument/didChange" && hasChanges params

/-- The place that a message is about. -/
def placeOf (params : Json) : Place :=
  ⟨wholeAt ["position", "line"] params, wholeAt ["position", "character"] params⟩

theorem isSome_lastChange? (params : Json) :
    (lastChange? params).isSome = hasChanges params := by
  unfold lastChange? hasChanges
  generalize Json.valuesAt [.member "contentChanges"] params = values
  rw [Option.isSome_map, Json.sinceEmpty, List.head?_takeWhile, List.head?_map,
    List.head?_reverse]
  cases values.getLast? with
  | none => rfl
  | some value => cases hitems : Json.itemsOf value <;> simp [Option.filter, hitems]

/-- A message gives a document a text if it tells of one. -/
theorem givesText_iff (message : Json) : givesText message = true ↔
    ∃ uri version text, told? message = some (.write uri version text) := by
  unfold givesText told?
  cases fields? message with
  | none => simp
  | some params =>
    rw [Option.any_some, Option.bind_some]
    by_cases hopen : hasMethod message "textDocument/didOpen" = true
    · simp [hopen]
    by_cases hchange : hasMethod message "textDocument/didChange" = true
    · rw [if_neg hopen, if_pos hchange, ← isSome_lastChange?]
      cases lastChange? params <;> simp [hopen, hchange]
    · rw [if_neg hopen, if_neg hchange]
      split <;> simp [hopen, hchange]

/-! ## Messages as editors write them -/

/-- A message with its method and parameters. -/
def written (method : String) (params : List (String × Json)) : Json :=
  Json.record [("jsonrpc", .string "2.0"), ("method", .string method),
    ("params", Json.record params)]

theorem fields?_written {method : String} {params : List (String × Json)} {shape : Shape}
    {arranged : Json} (hshape : shapeFor? method = some shape)
    (hparams : (Json.record params).canonical = arranged) (hfits : Fits shape arranged) :
    fields? (written method params) = some arranged := by
  have hmethod : method? (written method params) = some (Text.ofString method) := rfl
  have hmember : (written method params).member? "params" = some (Json.record params) := rfl
  rw [fields?, hmethod, Option.bind_some, hshape, Option.bind_some, hmember, Option.map_some,
    hparams, Option.filter_some, if_pos (decide_eq_true hfits)]

variable {uri language text : Text} {version : Int}

theorem fits_text (t : Text) : Fits .text (.string t) := Json.fits_kind.2 rfl

theorem fits_int (hlow : -2 ^ 63 ≤ version) (hhigh : version < 2 ^ 63) :
    Fits .whole (.int version) := by
  refine Json.fits_kind.2 ?_
  rw [Json.int, Json.Kind.admits, Json.wholeNumber?_signedDecimal hlow hhigh]
  rfl

theorem wholeAt_eq {names : List String} {json : Json} (hlow : -2 ^ 63 ≤ version)
    (hhigh : version < 2 ^ 63) (h : Json.valuesAt (names.map .member) json = [.int version]) :
    wholeAt names json = version := by
  have hwhole : Json.whole? (.int version) = some version :=
    Json.wholeNumber?_signedDecimal hlow hhigh
  simp [wholeAt, h, hwhole]

/-- **Opening a document** tells its name, its version and its text. -/
theorem told?_opened (hlow : -2 ^ 63 ≤ version) (hhigh : version < 2 ^ 63) :
    told? (written "textDocument/didOpen" [("textDocument", Json.record
      [("uri", .string uri), ("languageId", .string language), ("version", .int version),
        ("text", .string text)])]) = some (.write uri version text) := by
  have hfits : Fits (.record [("textDocument",
      .record [("uri", .text), ("languageId", .text), ("version", .whole), ("text", .text)])])
      (Json.record [("textDocument", Json.record [("languageId", .string language),
        ("text", .string text), ("uri", .string uri), ("version", .int version)])]) := by
    simp only [Json.fits_record, List.forall_mem_cons, List.not_mem_nil, false_imp_iff,
      implies_true, and_true]
    exact ⟨rfl, List.forall_mem_singleton.2 ⟨rfl, List.forall_mem_singleton.2 (fits_text uri),
      List.forall_mem_singleton.2 (fits_text language),
      List.forall_mem_singleton.2 (fits_int hlow hhigh),
      List.forall_mem_singleton.2 (fits_text text)⟩⟩
  rw [told?, fields?_written rfl rfl hfits, Option.bind_some]
  show some (Edit.write _ (wholeAt _ _) _) = _
  rw [wholeAt_eq hlow hhigh rfl]
  rfl

/-- Changes of a document. -/
def changes (texts : List Text) : Json :=
  .array (texts.map fun text => Json.record [("text", .string text)])

theorem canonical_changes (texts : List Text) : (changes texts).canonical = changes texts := by
  rw [changes, Json.canonical]
  congr 1
  induction texts with
  | nil => rfl
  | cons text texts ih =>
    rw [List.map_cons, Json.canonicalItems, ih]
    rfl

theorem lastChange?_changes {params : Json} {texts : List Text}
    (h : Json.valuesAt [.member "contentChanges"] params = [changes texts]) :
    lastChange? params = texts.getLast? := by
  rw [lastChange?, h, show [changes texts] = [] ++ [changes texts] from rfl, Json.sinceEmpty_concat]
  rcases List.eq_nil_or_concat texts with rfl | ⟨before, text, rfl⟩
  · rfl
  · have hitems : Json.itemsOf (changes (before ++ [text])) =
        before.map (fun text => Json.record [("text", .string text)]) ++
          [Json.record [("text", .string text)]] := List.map_append
    have htext : changeText? (Json.record [("text", .string text)]) = some text := rfl
    simp [hitems, htext, Json.sinceEmpty]

/-- **Changing a document** tells its name, its version and the text of the last change. -/
theorem told?_changed (hlow : -2 ^ 63 ≤ version) (hhigh : version < 2 ^ 63) (texts : List Text) :
    told? (written "textDocument/didChange" [("textDocument", Json.record
      [("uri", .string uri), ("version", .int version)]), ("contentChanges", changes texts)]) =
        texts.getLast?.map (.write uri version) := by
  let target : String × Json :=
    ("textDocument", Json.record [("uri", .string uri), ("version", .int version)])
  have harranged : (Json.record [target, ("contentChanges", changes texts)]).canonical =
      Json.record [("contentChanges", changes texts), target] :=
    congrArg (fun list => Json.record [("contentChanges", list), target]) (canonical_changes texts)
  have hfits : Fits (.record [("textDocument", .record [("uri", .text), ("version", .whole)]),
      ("contentChanges", .list (.record [("text", .text)]))])
      (Json.record [("contentChanges", changes texts), target]) := by
    simp only [Json.fits_record, Json.fits_list, List.forall_mem_cons, List.not_mem_nil,
      false_imp_iff, implies_true, and_true]
    refine ⟨rfl, List.forall_mem_singleton.2 ⟨rfl, List.forall_mem_singleton.2 (fits_text uri),
      List.forall_mem_singleton.2 (fits_int hlow hhigh)⟩, List.forall_mem_singleton.2 ⟨rfl, ?_⟩⟩
    exact List.forall_mem_map.2 fun text _ => ⟨rfl, List.forall_mem_singleton.2 (fits_text text)⟩
  rw [told?, fields?_written rfl harranged hfits, Option.bind_some]
  show (lastChange? _).map (Edit.write _ (wholeAt _ _)) = _
  rw [wholeAt_eq hlow hhigh rfl, lastChange?_changes rfl]
  rfl

/-- **Closing a document** tells its name. -/
theorem told?_closed : told? (written "textDocument/didClose"
    [("textDocument", Json.record [("uri", .string uri)])]) = some (.close uri) := by
  have hfits : Fits (.record [("textDocument", .record [("uri", .text)])])
      (Json.record [("textDocument", Json.record [("uri", .string uri)])]) := by
    simp only [Json.fits_record, List.forall_mem_singleton]
    exact ⟨rfl, List.forall_mem_singleton.2 ⟨rfl, List.forall_mem_singleton.2 (fits_text uri)⟩⟩
  rw [told?, fields?_written rfl rfl hfits, Option.bind_some]
  rfl

end Message

/-! ## What the decoders accept -/

theorem checks_uri : Checks Target.uriPlace.update .text := Json.checks_string.part _ _

theorem checks_language : Checks Target.languagePlace.update .text := Json.checks_string.part _ _

theorem checks_version : Checks Target.versionPlace.update .whole := Json.checks_int.part _ _

theorem checks_text : Checks Target.textPlace.update .text := Json.checks_string.part _ _

theorem checks_target {places : List (Json.Place Target)} {shape : Shape}
    (h : Checks (Json.decodeRecord places) shape) :
    Checks (Params.targetPlace places).update shape :=
  h.part _ _

theorem checks_uriOnly :
    Checks (Params.targetPlace [Target.uriPlace]).update (.record [("uri", .text)]) := by
  apply checks_target
  exact Checks.record (by decide +kernel) (.cons checks_uri .nil)

theorem checks_change : Checks changeDecoder (.record [("text", .text)]) :=
  Checks.record (by decide +kernel) (.cons Json.checks_string .nil)

theorem checks_changes :
    Checks Params.changesPlace.update (.list (.record [("text", .text)])) :=
  (checks_change.list []).part _ _

theorem checks_place :
    Checks Params.placePlace.update (.record [("line", .whole), ("character", .whole)]) := by
  have hplace : Checks placeDecoder (.record [("line", .whole), ("character", .whole)]) :=
    Checks.record (by decide +kernel)
      (.cons (Json.checks_int.part _ _) (.cons (Json.checks_int.part _ _) .nil))
  exact hplace.part _ _

theorem checks_process : Checks Params.processPlace.update .whole := Json.checks_int.part _ _

theorem checks_options : Checks Params.optionsPlace.update (.record [("mode", .text)]) := by
  have hmode : Checks (Json.decodeRecord [⟨"mode", Json.decodeString⟩])
      (.record [("mode", .text)]) :=
    Checks.record (by decide +kernel) (.cons Json.checks_string .nil)
  exact (hmode.option (by decide) []).part _ _

/-- Parameters that tell of changes. -/
theorem checks_changePlaces : Checks (Json.decodeRecord Params.changePlaces)
    (.record [("textDocument", .record [("uri", .text), ("version", .whole)]),
      ("contentChanges", .list (.record [("text", .text)]))]) := by
  have htarget : Checks (Json.decodeRecord [Target.uriPlace, Target.versionPlace])
      (.record [("uri", .text), ("version", .whole)]) :=
    Checks.record (by decide +kernel) (.cons checks_uri (.cons checks_version .nil))
  exact Checks.record (by decide +kernel)
    (.cons (checks_target htarget) (.cons checks_changes .nil))

open Message (shapeFor?)

/-- **A method accepts the parameters that have its shape.** -/
theorem checks_params (method : Text) :
    placesFor? method = none ∧ shapeFor? method = none ∨
      ∃ places shape, placesFor? method = some places ∧ shapeFor? method = some shape ∧
        Checks (Json.decodeRecord places) shape := by
  unfold placesFor? shapeFor?
  split
  case isTrue =>
    refine .inr ⟨_, _, rfl, rfl, Checks.record (by decide +kernel) ?_⟩
    exact .cons checks_process (.cons checks_options .nil)
  split
  case isTrue =>
    refine .inr ⟨_, _, rfl, rfl, Checks.record (by decide +kernel) (.cons (checks_target ?_) .nil)⟩
    exact Checks.record (by decide +kernel)
      (.cons checks_uri (.cons checks_language (.cons checks_version (.cons checks_text .nil))))
  split
  case isTrue =>
    exact .inr ⟨_, _, rfl, rfl, checks_changePlaces⟩
  have hdocument : Checks (Json.decodeRecord Params.documentPlaces)
      (.record [("textDocument", .record [("uri", .text)])]) :=
    Checks.record (by decide +kernel) (.cons checks_uriOnly .nil)
  split
  case isTrue => exact .inr ⟨_, _, rfl, rfl, hdocument⟩
  split
  case isTrue => exact .inr ⟨_, _, rfl, rfl, hdocument⟩
  split
  case isTrue =>
    refine .inr ⟨_, _, rfl, rfl, Checks.record (by decide +kernel) ?_⟩
    exact .cons checks_uriOnly (.cons checks_place .nil)
  case isFalse => exact .inl ⟨rfl, rfl⟩

/-! ## What the decoders give -/

/-- The places in a document. -/
def targetPlaces : List (Json.Place Target) :=
  [Target.uriPlace, Target.languagePlace, Target.versionPlace, Target.textPlace]

/-- The places in parameters that are about a document. -/
def paramsPlaces (inner : List (Json.Place Target)) : List (Json.Place Params) :=
  [Params.targetPlace inner, Params.changesPlace, Params.placePlace]

/-- Places that are about a document, with the places in the document. -/
structure Targeted (places : List (Json.Place Params)) (inner : List (Json.Place Target)) :
    Prop where
  names : DistinctNames places
  innerNames : DistinctNames inner
  subset : places ⊆ paramsPlaces inner
  innerSubset : inner ⊆ targetPlaces
  target : Params.targetPlace inner ∈ places
  uri : Target.uriPlace ∈ inner

theorem targeted_openPlaces : Targeted Params.openPlaces targetPlaces where
  names := by decide +kernel
  innerNames := by decide +kernel
  subset := by simp [Params.openPlaces, paramsPlaces, targetPlaces]
  innerSubset := List.Subset.refl _
  target := List.mem_cons_self
  uri := List.mem_cons_self

theorem targeted_changePlaces :
    Targeted Params.changePlaces [Target.uriPlace, Target.versionPlace] where
  names := by decide +kernel
  innerNames := by decide +kernel
  subset := by simp [Params.changePlaces, paramsPlaces]
  innerSubset := by simp [targetPlaces]
  target := List.mem_cons_self
  uri := List.mem_cons_self

theorem targeted_documentPlaces : Targeted Params.documentPlaces [Target.uriPlace] where
  names := by decide +kernel
  innerNames := by decide +kernel
  subset := by simp [Params.documentPlaces, paramsPlaces]
  innerSubset := by simp [targetPlaces]
  target := List.mem_cons_self
  uri := List.mem_cons_self

theorem targeted_hoverPlaces : Targeted Params.hoverPlaces [Target.uriPlace] where
  names := by decide +kernel
  innerNames := by decide +kernel
  subset := by simp [Params.hoverPlaces, paramsPlaces]
  innerSubset := by simp [targetPlaces]
  target := List.mem_cons_self
  uri := List.mem_cons_self

namespace Targeted

variable {places : List (Json.Place Params)} {inner : List (Json.Place Target)}
variable {params : Params} {json : Json}

/-- What is read from the document. -/
theorem tracks_target {β : Type} {part : Target → β} {path : List Json.Step}
    {update : β → Json → β} (h : Targeted places inner) {place : Json.Place Target}
    (hplace : place ∈ inner) (htracks : Tracks place.update part path update)
    (hothers : Apart part place.name targetPlaces) :
    Tracks (Json.decodeRecord places) (fun params => part params.target)
      (.member "textDocument" :: .member place.name :: path) update := by
  have hinner : Tracks (Json.decodeRecord inner) part (.member place.name :: path) update :=
    .record h.innerNames hplace htracks (hothers.subset h.innerSubset)
  have hbeside : Apart (fun params : Params => part params.target) "textDocument"
      (paramsPlaces inner) :=
    .self rfl (.other (spares_part fun _ _ => rfl) (.other (spares_part fun _ _ => rfl) .nil))
  exact .record h.names h.target (hinner.part (fun _ => rfl) fun _ _ => rfl)
    (hbeside.subset h.subset)

theorem eq_uri (h : Targeted places inner)
    (hdecode : Json.decodeRecord places {} json = some params) :
    params.target.uri = textAt ["textDocument", "uri"] json := by
  have htracks : Tracks (Json.decodeRecord places) (fun params => params.target.uri)
      [.member "textDocument", .member "uri"] (Json.keep Json.text?) := by
    apply h.tracks_target h.uri (Json.tracks_string.part (fun _ => rfl) fun _ _ => rfl)
    exact .self rfl (.other (spares_part fun _ _ => rfl) (.other (spares_part fun _ _ => rfl)
      (.other (spares_part fun _ _ => rfl) .nil)))
  have heq := htracks.eq_textAt ["textDocument", "uri"] hdecode rfl
  exact heq

theorem eq_version (h : Targeted places inner) (hversion : Target.versionPlace ∈ inner)
    (hdecode : Json.decodeRecord places {} json = some params) :
    params.target.version = wholeAt ["textDocument", "version"] json := by
  have htracks : Tracks (Json.decodeRecord places) (fun params => params.target.version)
      [.member "textDocument", .member "version"] (Json.keep Json.whole?) := by
    apply h.tracks_target hversion (Json.tracks_int.part (fun _ => rfl) fun _ _ => rfl)
    exact .other (spares_part fun _ _ => rfl) (.other (spares_part fun _ _ => rfl)
      (.self rfl (.other (spares_part fun _ _ => rfl) .nil)))
  have heq := htracks.eq_wholeAt ["textDocument", "version"] hdecode rfl
  exact heq

theorem eq_text (h : Targeted places inner) (htext : Target.textPlace ∈ inner)
    (hdecode : Json.decodeRecord places {} json = some params) :
    params.target.text = textAt ["textDocument", "text"] json := by
  have htracks : Tracks (Json.decodeRecord places) (fun params => params.target.text)
      [.member "textDocument", .member "text"] (Json.keep Json.text?) := by
    apply h.tracks_target htext (Json.tracks_string.part (fun _ => rfl) fun _ _ => rfl)
    exact .other (spares_part fun _ _ => rfl) (.other (spares_part fun _ _ => rfl)
      (.other (spares_part fun _ _ => rfl) (.self rfl .nil)))
  have heq := htracks.eq_textAt ["textDocument", "text"] hdecode rfl
  exact heq

/-- What is read beside the document. -/
theorem tracks_beside {β : Type} {part : Params → β} {path : List Json.Step}
    {update : β → Json → β} (h : Targeted places inner) {place : Json.Place Params}
    (hplace : place ∈ places) (htracks : Tracks place.update part path update)
    (hothers : Apart part place.name (paramsPlaces inner)) :
    Tracks (Json.decodeRecord places) part (.member place.name :: path) update :=
  .record h.names hplace htracks (hothers.subset h.subset)

theorem eq_changes (h : Targeted places inner) (hchanges : Params.changesPlace ∈ places)
    (hdecode : Json.decodeRecord places {} json = some params) :
    params.changes = (Json.valuesAt [.member "contentChanges"] json).foldl
      (fun held value => (Json.decodeList [] changeDecoder held value).getD held) {} := by
  have hupdate : Tracks Params.changesPlace.update Params.changes []
      fun held value => (Json.decodeList [] changeDecoder held value).getD held :=
    (Json.tracks_self _).part (fun _ => rfl) fun _ _ => rfl
  have hothers : Apart Params.changes "contentChanges" (paramsPlaces inner) :=
    .other (spares_part fun _ _ => rfl) (.self rfl (.other (spares_part fun _ _ => rfl) .nil))
  exact h.tracks_beside hchanges hupdate hothers _ _ _ hdecode

theorem eq_place (h : Targeted places inner) (hplace : Params.placePlace ∈ places)
    (hdecode : Json.decodeRecord places {} json = some params) :
    params.place = Message.placeOf json := by
  have hothers (part : Place → Int) :
      Apart (fun params : Params => part params.place) "position" (paramsPlaces inner) :=
    .other (spares_part fun _ _ => rfl) (.other (spares_part fun _ _ => rfl) (.self rfl .nil))
  have hline : Tracks placeDecoder Place.line [.member "line"] (Json.keep Json.whole?) :=
    .record (by decide +kernel) List.mem_cons_self
      (Json.tracks_int.part (fun _ => rfl) fun _ _ => rfl)
      (.self rfl (.other (spares_part fun _ _ => rfl) .nil))
  have hcharacter :
      Tracks placeDecoder Place.character [.member "character"] (Json.keep Json.whole?) :=
    .record (by decide +kernel) (List.mem_cons_of_mem _ List.mem_cons_self)
      (Json.tracks_int.part (fun _ => rfl) fun _ _ => rfl)
      (.other (spares_part fun _ _ => rfl) (.self rfl .nil))
  have htracks {part : Place → Int} {name : String} (hpart : part {} = 0)
      (hname : Tracks placeDecoder part [.member name] (Json.keep Json.whole?)) :
      part params.place = wholeAt ["position", name] json := by
    have hwhole : Tracks (Json.decodeRecord places) (fun params => part params.place)
        [.member "position", .member name] (Json.keep Json.whole?) :=
      h.tracks_beside hplace (hname.part (fun _ => rfl) fun _ _ => rfl) (hothers part)
    have heq := hwhole.eq_wholeAt ["position", name] hdecode hpart
    exact heq
  rw [Message.placeOf, ← htracks rfl hline, ← htracks rfl hcharacter]

end Targeted

/-! ## The last change -/

theorem changeDecoder_eq (held : Text) (change : Json) (held' : Text)
    (h : changeDecoder held change = some held') :
    held' = (Message.changeText? change).getD held := by
  have htracks : Tracks changeDecoder id [.member "text"] (Json.keep Json.text?) :=
    .record (by decide +kernel) List.mem_cons_self Json.tracks_string (.self rfl .nil)
  have hheld := htracks _ _ _ h
  rw [Json.foldl_keep] at hheld
  exact hheld

/-- **The last change** that is decoded is the last one of the message. -/
theorem getLast?_changes {params : Params} {json : Json}
    (hdecode : Json.decodeRecord Params.changePlaces {} json = some params) :
    params.changes.items.getLast? = Message.lastChange? json := by
  have hfits := (checks_changePlaces {} json).1 (Option.isSome_of_eq_some hdecode)
  have haccept : ∀ value ∈ Json.valuesAt [.member "contentChanges"] json,
      ∀ held, (Json.decodeList [] changeDecoder held value).isSome = true := by
    intro value hvalue held
    rw [Json.valuesAt_step] at hvalue
    refine (checks_change.list [] held value).2 ?_
    exact (Json.fits_record.1 hfits).2 _ (List.mem_cons_of_mem _ List.mem_cons_self) value hvalue
  have hrecalls := Json.recalls_foldl changeDecoder_eq haccept
  rw [← targeted_changePlaces.eq_changes (List.mem_cons_of_mem _ List.mem_cons_self) hdecode]
    at hrecalls
  exact hrecalls.getLast?

/-! ## Messages and requests -/

variable {Id : Type} {message : Json} {request : Request Id}

/-- A request has the method and the parameters of a message. Within the parameters the members are
sorted, the last of each name. -/
structure Conveys (message : Json) (request : Request Id) : Prop where
  method : message.member? "method" = some (.string request.method)
  params : request.params = (message.member? "params").map Json.canonical

namespace Conveys

theorem method? (h : Conveys message request) : Message.method? message = some request.method := by
  rw [Message.method?, h.method]
  rfl

theorem hasMethod (h : Conveys message request) {method : Text} :
    Message.hasMethod message method = true ↔ request.method = method := by
  rw [Message.hasMethod, h.method?, beq_iff_eq, Option.some.injEq]

/-- The decoders read what the message has to read. -/
theorem read (h : Conveys message request) :
    request.ownParams? = none ∧ Message.fields? message = none ∨
      ∃ places params json, placesFor? request.method = some places ∧
        request.ownParams? = some params ∧ Message.fields? message = some json ∧
        Json.decodeRecord places {} json = some params := by
  rw [Request.ownParams?, Message.fields?, h.method?, Option.bind_some, ← h.params]
  rcases checks_params request.method with
    ⟨hplaces, hshape⟩ | ⟨places, shape, hplaces, hshape, hchecks⟩
  · rw [hplaces, hshape]
    exact .inl ⟨rfl, rfl⟩
  rw [hplaces, hshape, Option.bind_some, Option.bind_some, Request.params?]
  cases hparams : request.params with
  | none => exact .inl ⟨rfl, rfl⟩
  | some json =>
    rw [Option.bind_some]
    cases hdecode : Json.decodeRecord places {} json with
    | none =>
      refine .inl ⟨rfl, ?_⟩
      have hnot : ¬ Fits shape json := by
        rw [← hchecks {} json, hdecode]
        exact Bool.false_ne_true
      simp [hnot]
    | some params =>
      have hfits : Fits shape json := (hchecks {} json).1 (Option.isSome_of_eq_some hdecode)
      exact .inr ⟨places, params, json, rfl, rfl, by simp [hfits], hdecode⟩

theorem placesFor?_ne_none (h : Conveys message request)
    (hneeds : Message.needsFields message = true) : placesFor? request.method ≠ none := by
  rw [Message.needsFields, h.method?, Option.bind_some] at hneeds
  rcases checks_params request.method with ⟨-, hshape⟩ | ⟨places, shape, hplaces, -, -⟩
  · rw [hshape] at hneeds
    cases hneeds
  · simp [hplaces]

theorem ownParams?_eq_none_iff (h : Conveys message request) :
    request.ownParams? = none ↔ Message.fields? message = none := by
  rcases h.read with ⟨hown, hfields⟩ | ⟨places, params, json, -, hown, hfields, -⟩
  · simp [hown, hfields]
  · simp [hown, hfields]

/-- **The document that a request is about** is the one of the message. -/
theorem uri? (h : Conveys message request) : request.uri? = Message.uri? message := by
  simp only [Request.uri?, Message.uri?, h.hasMethod]
  split
  case isTrue => rfl
  case isFalse hgreet =>
  rcases h.read with ⟨hown, hfields⟩ | ⟨places, params, json, hplaces, hown, hfields, hdecode⟩
  · rw [hown, hfields]
    rfl
  rw [hown, hfields, Option.map_some, Option.map_some]
  obtain ⟨inner, htargeted⟩ : ∃ inner, Targeted places inner := by
    unfold placesFor? at hplaces
    rw [if_neg hgreet] at hplaces
    split at hplaces
    case isTrue => exact Option.some.inj hplaces ▸ ⟨_, targeted_openPlaces⟩
    split at hplaces
    case isTrue => exact Option.some.inj hplaces ▸ ⟨_, targeted_changePlaces⟩
    split at hplaces
    case isTrue => exact Option.some.inj hplaces ▸ ⟨_, targeted_documentPlaces⟩
    split at hplaces
    case isTrue => exact Option.some.inj hplaces ▸ ⟨_, targeted_documentPlaces⟩
    split at hplaces
    case isTrue => exact Option.some.inj hplaces ▸ ⟨_, targeted_hoverPlaces⟩
    case isFalse => cases hplaces
  rw [htargeted.eq_uri hdecode]

/-- **The edit that a request tells of** is the one of the message. -/
theorem edit? (h : Conveys message request) : request.edit? = Message.told? message := by
  simp only [Request.edit?, Message.told?, h.hasMethod]
  rcases h.read with ⟨hown, hfields⟩ | ⟨places, params, json, hplaces, hown, hfields, hdecode⟩
  · rw [hown, hfields]
    rfl
  rw [hown, hfields, Option.bind_some, Option.bind_some]
  by_cases hopen : request.method = "textDocument/didOpen"
  · rw [hopen] at hplaces
    cases hplaces
    rw [if_pos hopen, if_pos hopen, targeted_openPlaces.eq_uri hdecode,
      targeted_openPlaces.eq_version (by simp [targetPlaces]) hdecode,
      targeted_openPlaces.eq_text (by simp [targetPlaces]) hdecode]
  rw [if_neg hopen, if_neg hopen]
  by_cases hchange : request.method = "textDocument/didChange"
  · rw [hchange] at hplaces
    cases hplaces
    rw [if_pos hchange, if_pos hchange, targeted_changePlaces.eq_uri hdecode,
      targeted_changePlaces.eq_version (by simp) hdecode, getLast?_changes hdecode]
  rw [if_neg hchange, if_neg hchange]
  by_cases hclose : request.method = "textDocument/didClose"
  · rw [hclose] at hplaces
    cases hplaces
    rw [if_pos hclose, if_pos hclose, targeted_documentPlaces.eq_uri hdecode]
  · rw [if_neg hclose, if_neg hclose]

/-- **The place that a request is about** is the one of the message. -/
theorem hover (h : Conveys message request) (hmethod : request.method = "textDocument/hover")
    {json : Json} (hfields : Message.fields? message = some json) :
    ∃ params, request.ownParams? = some params ∧
      params.target.uri = textAt ["textDocument", "uri"] json ∧
      params.place = Message.placeOf json := by
  rcases h.read with ⟨-, hnone⟩ | ⟨places, params, json', hplaces, hown, hfields', hdecode⟩
  · rw [hfields] at hnone
    cases hnone
  rw [hfields] at hfields'
  cases hfields'
  rw [hmethod] at hplaces
  cases hplaces
  exact ⟨params, hown, targeted_hoverPlaces.eq_uri hdecode,
    targeted_hoverPlaces.eq_place (by simp [Params.hoverPlaces]) hdecode⟩

end Conveys

end SicXe.Editor
