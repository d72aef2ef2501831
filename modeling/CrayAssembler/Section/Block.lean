import CrayAssembler.Object.Basic
import CrayAssembler.Section.Buffer

namespace CrayAssembler

namespace ImageWords

/-- One past the last word. -/
def stop (image : ImageWords) : Nat :=
  image.base + image.toList.length

/-- A word of the image; zero outside of it. -/
def word (image : ImageWords) (address : Nat) : Word :=
  if address < image.base then 0 else image.toList.getD (address - image.base) 0

end ImageWords

/-- The image and the tables of a section. The first word that is written is the base of the image;
nothing can be written before it. The image reaches to the last word that was written, and words in
between that were not are zero. -/
structure ObjectBlock where
  buffer : ImageBuffer
  tidy : buffer.Tidy
  relocations : List Object.Relocation
  externals : List Object.ExternalReference

namespace ObjectBlock

def empty : ObjectBlock := ⟨.empty, ImageBuffer.tidy_empty, [], []⟩

instance : Inhabited ObjectBlock := ⟨empty⟩

def isBlank (block : ObjectBlock) : Bool :=
  block.buffer.lowParcel.isNone

def image (block : ObjectBlock) : Option ImageWords :=
  block.buffer.image

def writeBits (block : ObjectBlock) (bitAddress width : Nat) (value : Word) :
    Except ErrorKind ObjectBlock :=
  match written : block.buffer.writeBits bitAddress width value with
  | .ok buffer => .ok { block with buffer, tidy := block.tidy.writeBits written }
  | .error kind => .error kind

def addRelocation (block : ObjectBlock) (entry : Object.Relocation) : ObjectBlock :=
  { block with relocations := block.relocations ++ [entry] }

def addExternal (block : ObjectBlock) (entry : Object.ExternalReference) : ObjectBlock :=
  { block with externals := block.externals ++ [entry] }

end ObjectBlock

end CrayAssembler
