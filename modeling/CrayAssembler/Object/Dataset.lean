import CrayAssembler.Machine.Word

namespace CrayAssembler

namespace Dataset

inductive Item where
  | record (words : List Word)
  | endOfFile
  | endOfData
deriving DecidableEq, Repr

def recordControl : Word := 0x8000000000000000

def endOfFileControl : Word := 0xe000000000000000

def endOfDataControl : Word := 0xf000000000000000

/-- The bits of a control word that tell its kind. -/
def kindMask : Word := 0xf000000000000000

def Item.words : Item → List Word
  | .record words => (recordControl ||| UInt64.ofNat words.length) :: words
  | .endOfFile => [endOfFileControl]
  | .endOfData => [endOfDataControl]

def words (items : List Item) : List Word :=
  items.flatMap Item.words

/-- Big-endian bytes of a dataset. -/
def bytes (items : List Item) : List UInt8 :=
  (words items).flatMap Word.bytes

/-- A dataset being written: finished items, and the words of the record that is not finished. -/
structure Writer where
  items : List Item := []
  pending : List Word := []
deriving DecidableEq, Repr

namespace Writer

/-- Add words to the current record. -/
def write (writer : Writer) (words : List Word) : Writer :=
  { writer with pending := writer.pending ++ words }

def endRecord (writer : Writer) : Writer :=
  ⟨writer.items ++ [.record writer.pending], []⟩

/-- End the current record if there are words for it. -/
def settle (writer : Writer) : Writer :=
  if writer.pending.isEmpty then writer else writer.endRecord

def endFile (writer : Writer) : Writer :=
  let settled := writer.settle
  { settled with items := settled.items ++ [.endOfFile] }

def endData (writer : Writer) : Writer :=
  let settled := writer.settle
  { settled with items := settled.items ++ [.endOfData] }

/-- Write an item that is at hand as a whole. -/
def put (writer : Writer) : Item → Writer
  | .record words => (writer.write words).endRecord
  | .endOfFile => writer.endFile
  | .endOfData => writer.endData

/-- Write items one after another. -/
def putAll (writer : Writer) (items : List Item) : Writer :=
  items.foldl put writer

theorem write_append (writer : Writer) (first second : List Word) :
    (writer.write first).write second = writer.write (first ++ second) := by
  unfold write
  rw [List.append_assoc]

/-- Where no record was left unfinished, what is written are the items. -/
theorem putAll_eq (done items : List Item) :
    putAll ⟨done, []⟩ items = ⟨done ++ items, []⟩ := by
  induction items generalizing done with
  | nil => rw [List.append_nil]; rfl
  | cons item items ih =>
    have step : put ⟨done, []⟩ item = ⟨done ++ [item], []⟩ := by cases item <;> rfl
    change putAll (put ⟨done, []⟩ item) items = _
    rw [step, ih, List.append_assoc]
    rfl

end Writer

/-- Where a dataset stops. -/
inductive Stop where
  | endOfData
  /-- The words end without a mark. -/
  | missingEndOfData
  | badControlWord
  /-- A record would be longer than what is left. -/
  | recordPastEnd
deriving DecidableEq, Repr

/-- Something at the place of its control word. -/
structure Located (α : Type) where
  position : Nat
  value : α
deriving DecidableEq, Repr

/-- Divide words into records and marks of files, up to the place where they stop. The first `skip`
words belong to the record before. -/
def divideFrom (position skip : Nat) : List Word → List (Located Item) × Located Stop
  | [] => ([], ⟨position, .missingEndOfData⟩)
  | word :: rest =>
    match skip with
    | more + 1 => divideFrom (position + 1) more rest
    | 0 =>
      let kind := word &&& kindMask
      if kind = endOfDataControl then ([], ⟨position, .endOfData⟩)
      else if kind = endOfFileControl then
        let (items, stop) := divideFrom (position + 1) 0 rest
        (⟨position, .endOfFile⟩ :: items, stop)
      else if kind = recordControl then
        let length := (word &&& ~~~kindMask).toNat
        if length ≤ rest.length then
          let (items, stop) := divideFrom (position + 1) length rest
          (⟨position, .record (rest.take length)⟩ :: items, stop)
        else ([], ⟨position, .recordPastEnd⟩)
      else ([], ⟨position, .badControlWord⟩)

def divide (words : List Word) : List (Located Item) × Located Stop :=
  divideFrom 0 0 words

end Dataset

end CrayAssembler
