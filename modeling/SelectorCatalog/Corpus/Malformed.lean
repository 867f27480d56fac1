import SelectorCatalog.Fault

/-!
# Malformed records

Why a corpus record gives no contract, with the words for it.
-/

set_option autoImplicit false

namespace SelectorCatalog

/-- What is wrong with a record. -/
inductive RecordFlaw where
  /-- The record could not be read at all. -/
  | unreadable
  /-- The record is of no known kind. -/
  | unknownKind (label : String)
  | missingMetadata
  | missingVersion
  /-- The sources are in another language, told by the file or the compiler. -/
  | vyper
  /-- The sources are in another language, told by the document. -/
  | otherLanguage (language : Value)
  | noSourceFiles
  | emptyResultList
  | resultNotObject
  | emptySourceCode
  /-- The source code opens like a document and is none. -/
  | badSourceDocument (error : Json.ReadError)
  /-- The source code is a document that holds no sources. -/
  | oddSourceDocument
  | standardInputNotObject
  | noInlineContent
  | noDeclaration
  /-- A part of the record does not have its shape. -/
  | fault (f : Fault)

/-- The words for a flaw, before which the record is named unless the sources alone are at fault. -/
def RecordFlaw.message (origin : String) : RecordFlaw → String
  | noDeclaration => "No contract, library or interface declared in sources"
  | flaw => origin ++ ": " ++ match flaw with
    | unreadable => "unreadable record"
    | unknownKind label => "unknown record kind " ++ Text.quoted label
    | missingMetadata => "missing metadata.json"
    | missingVersion => "missing compiler version"
    | vyper => "Vyper sources are not supported"
    | otherLanguage v => "unsupported language " ++ v.quoted
    | noSourceFiles => "no Solidity sources found"
    | emptyResultList => "empty Etherscan result list"
    | resultNotObject => "Etherscan result is not an object"
    | emptySourceCode => "empty SourceCode (contract not verified?)"
    | badSourceDocument e => "invalid JSON SourceCode: " ++ e.message
    | oddSourceDocument => "unexpected JSON SourceCode shape"
    | standardInputNotObject => "standard-JSON input is not an object"
    | noInlineContent => "no inline source content"
    | fault f => f.report
    | noDeclaration => ""

/-- A record that gives no contract. -/
structure MalformedRecord where
  origin : String
  flaw : RecordFlaw

/-- The message about a malformed record. -/
def MalformedRecord.message (m : MalformedRecord) : String := m.flaw.message m.origin

/-- A step on a record: a fault in it is a flaw of the record. -/
def RecordFlaw.lift {α : Type} (step : Except Fault α) : Except RecordFlaw α :=
  step.mapError .fault

end SelectorCatalog
