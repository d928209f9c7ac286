import SicXe.Editor.Document
import SicXe.Editor.Rpc

/-!
# Parameters

What the parameters of a request tell, and where each method looks for it. Parameters that are
absent or of the wrong kind tell nothing.
-/

namespace SicXe.Editor

/-- The document that parameters are about. -/
structure Target where
  uri : Text := []
  version : Int := 0
  text : Text := []

/-- Where the document's name is found. -/
def Target.uriPlace : Json.Place Target :=
  ⟨"uri", fun target json => (Json.decodeString target.uri json).map ({ target with uri := · })⟩

/-- Where the document's version is found. -/
def Target.versionPlace : Json.Place Target :=
  ⟨"version", fun target json =>
    (Json.decodeInt target.version json).map ({ target with version := · })⟩

/-- Where the document's text is found. -/
def Target.textPlace : Json.Place Target :=
  ⟨"text", fun target json => (Json.decodeString target.text json).map ({ target with text := · })⟩

/-- Where the document's language is found; it has to be a text but does not matter. -/
def Target.languagePlace : Json.Place Target :=
  ⟨"languageId", fun target json => (Json.decodeString [] json).map fun _ => target⟩

/-- Parameters with everything that a method may ask for. -/
structure Params where
  target : Target := {}
  changes : Json.Slots Text := {}
  place : Place := {}
  /-- The machine that the editor asks for, by its short name. -/
  modeName : Option Text := none

/-- Where the document is found, with the places that a method asks for. -/
def Params.targetPlace (places : List (Json.Place Target)) : Json.Place Params :=
  ⟨"textDocument", fun params json =>
    (Json.decodeRecord places params.target json).map ({ params with target := · })⟩

/-- A change of a document: its new text. -/
def changeDecoder : Json.Decoder Text := Json.decodeRecord [⟨"text", Json.decodeString⟩]

/-- Where the changes are found. -/
def Params.changesPlace : Json.Place Params :=
  ⟨"contentChanges", fun params json =>
    (Json.decodeList [] changeDecoder params.changes json).map ({ params with changes := · })⟩

/-- A place in a document. -/
def placeDecoder : Json.Decoder Place :=
  Json.decodeRecord
    [⟨"line", fun place json => (Json.decodeInt place.line json).map ({ place with line := · })⟩,
     ⟨"character", fun place json =>
        (Json.decodeInt place.character json).map ({ place with character := · })⟩]

/-- Where a place in the document is found. -/
def Params.placePlace : Json.Place Params :=
  ⟨"position", fun params json =>
    (placeDecoder params.place json).map ({ params with place := · })⟩

/-- Where the number of the editor's process is found; it has to be a number but does not matter. -/
def Params.processPlace : Json.Place Params :=
  ⟨"processId", fun params json => (Json.decodeInt 0 json).map fun _ => params⟩

/-- Where the editor's wishes are found. -/
def Params.optionsPlace : Json.Place Params :=
  ⟨"initializationOptions", fun params json =>
    (Json.decodeOption [] (Json.decodeRecord [⟨"mode", Json.decodeString⟩]) params.modeName
      json).map ({ params with modeName := · })⟩

/-- What the editor tells about itself when it says hello. -/
def Params.greetPlaces : List (Json.Place Params) := [Params.processPlace, Params.optionsPlace]

/-- What the editor tells about a document that it opened. -/
def Params.openPlaces : List (Json.Place Params) :=
  [Params.targetPlace
    [Target.uriPlace, Target.languagePlace, Target.versionPlace, Target.textPlace]]

/-- What the editor tells about a document that it changed. -/
def Params.changePlaces : List (Json.Place Params) :=
  [Params.targetPlace [Target.uriPlace, Target.versionPlace], Params.changesPlace]

/-- The document alone. -/
def Params.documentPlaces : List (Json.Place Params) := [Params.targetPlace [Target.uriPlace]]

/-- A place in a document. -/
def Params.hoverPlaces : List (Json.Place Params) :=
  [Params.targetPlace [Target.uriPlace], Params.placePlace]

/-- The parameters of a request, read at the given places; none if they are absent or of the wrong
kind. -/
def Request.params? {Id : Type} (request : Request Id) (places : List (Json.Place Params)) :
    Option Params :=
  request.params.bind (Json.decodeRecord places {})

end SicXe.Editor
