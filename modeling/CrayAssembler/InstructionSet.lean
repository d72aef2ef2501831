import CrayAssembler.Pattern.Matcher

namespace CrayAssembler

namespace InstructionSet

/-- Where a field of an instruction comes from. -/
inductive Part where
  /-- The number of a register argument. -/
  | register (arg : Nat)
  | fixed (value : Nat)
deriving DecidableEq, Repr

inductive Encoding where
  /-- `gh i j k`. -/
  | fields (gh : Nat) (i j k : Part)
  /-- `gh i jk`, where `jk` is the number of a register. -/
  | wide (gh : Nat) (i jk : Part)
  | constant (gh ijk : Nat)
  /-- A branch to the parcel address that an argument gives. -/
  | branch (gh address : Nat)
  /-- A memory reference; without an address the address is zero, without an index so is `h`. -/
  | memory (g i : Nat) (address index : Option Nat)
  /-- Load an A register with a value. -/
  | loadA (i value : Nat)
  /-- Load an S register with a value. -/
  | loadS (i value : Nat)
  /-- Shift a register by a constant. -/
  | shift (gh i count : Nat) (right : Bool)
  /-- Clear or set a semaphore. -/
  | setSemaphore (jk value : Nat)
  /-- Test and set a semaphore. -/
  | testSemaphore (jk value : Nat)
deriving DecidableEq, Repr

structure Rule where
  encoding : Encoding
  /-- Two register arguments that must be the same register. -/
  same : Option (Nat × Nat)
deriving DecidableEq, Repr

namespace Rule

def sameRegister (rule : Rule) (first second : Nat) : Rule :=
  { rule with same := some (first, second) }

end Rule

def only (encoding : Encoding) : Rule := ⟨encoding, none⟩

def fields (gh : Nat) (i j k : Part) : Rule := only (.fields gh i j k)

def ijk (gh : Nat) : Rule := fields gh (.register 0) (.register 1) (.register 2)

def wide (gh : Nat) (i jk : Part) : Rule := only (.wide gh i jk)

def constant (gh ijk : Nat) : Rule := only (.constant gh ijk)

def branch (gh : Nat) : Rule := only (.branch gh 0)

def memory (g i : Nat) (address index : Option Nat) : Rule := only (.memory g i address index)

def shift (gh : Nat) (right : Bool) : Rule := only (.shift gh 1 2 right)

/-- All instructions with their patterns. -/
def rules : List (String × Rule) :=
  [
    ("ERR", constant 0o000 0),
    ("PASS", constant 0o001 0),
    ("CA,Aj Ak", fields 0o001 (.fixed 0) (.register 1) (.register 2)),
    ("CL,Aj Ak", fields 0o001 (.fixed 1) (.register 1) (.register 2)),
    ("CI,Aj", fields 0o001 (.fixed 2) (.register 1) (.fixed 0)),
    ("MC,Aj", fields 0o001 (.fixed 2) (.register 1) (.fixed 1)),
    ("XA Aj", fields 0o001 (.fixed 3) (.register 1) (.fixed 0)),
    ("RT Sj", fields 0o001 (.fixed 4) (.register 1) (.fixed 0)),
    ("VL Ak", fields 0o002 (.fixed 0) (.fixed 0) (.register 1)),
    ("EFI", constant 0o002 0o100),
    ("DFI", constant 0o002 0o200),
    ("ERI", constant 0o002 0o300),
    ("DRI", constant 0o002 0o400),
    ("DBM", constant 0o002 0o500),
    ("EBM", constant 0o002 0o600),
    ("CMR", constant 0o002 0o700),
    ("VM Sj", fields 0o003 (.fixed 0) (.register 1) (.fixed 0)),
    ("SMjk $,TS", only (.testSemaphore 0 1)),
    ("SMjk $", only (.setSemaphore 0 1)),
    ("EX", constant 0o004 0),
    ("J Bjk", wide 0o005 (.fixed 0) (.register 0)),
    ("J $", branch 0o006),
    ("R $", branch 0o007),
    ("JAZ $", branch 0o010),
    ("JAN $", branch 0o011),
    ("JAP $", branch 0o012),
    ("JAM $", branch 0o013),
    ("JSZ $", branch 0o014),
    ("JSN $", branch 0o015),
    ("JSP $", branch 0o016),
    ("JSM $", branch 0o017),
    ("Ai $", only (.loadA 0 1)),
    ("Ai Sj", fields 0o023 (.register 0) (.register 1) (.fixed 0)),
    ("Ai VL", fields 0o023 (.register 0) (.fixed 0) (.fixed 1)),
    ("Ai Bjk", wide 0o024 (.register 0) (.register 1)),
    ("Bjk Ai", wide 0o025 (.register 1) (.register 0)),
    ("Ai PSj", fields 0o026 (.register 0) (.register 1) (.fixed 0)),
    ("Ai QSj", fields 0o026 (.register 0) (.register 1) (.fixed 1)),
    ("Ai SBj", fields 0o026 (.register 0) (.register 1) (.fixed 7)),
    ("Ai ZSj", fields 0o027 (.register 0) (.register 1) (.fixed 0)),
    ("SBj Ai", fields 0o027 (.register 1) (.register 0) (.fixed 7)),
    ("Ai Aj+Ak", ijk 0o030),
    ("Ai Ak", fields 0o030 (.register 0) (.fixed 0) (.register 1)),
    ("Ai Aj-Ak", ijk 0o031),
    ("Ai -Ak", fields 0o031 (.register 0) (.fixed 0) (.register 1)),
    ("Ai Aj*Ak", ijk 0o032),
    ("Ai CI", fields 0o033 (.register 0) (.fixed 0) (.fixed 0)),
    ("Ai CA,Aj", fields 0o033 (.register 0) (.register 2) (.fixed 0)),
    ("Ai CE,Aj", fields 0o033 (.register 0) (.register 2) (.fixed 1)),
    ("Bjk,Ai ,A0", wide 0o034 (.register 1) (.register 0)),
    (",A0 Bjk,Ai", wide 0o035 (.register 2) (.register 1)),
    ("Tjk,Ai ,A0", wide 0o036 (.register 1) (.register 0)),
    (",A0 Tjk,Ai", wide 0o037 (.register 2) (.register 1)),
    ("Ai $,Ah", memory 0o10 0 (some 1) (some 2)),
    ("Ai $,", memory 0o10 0 (some 1) none),
    ("Ai ,Ah", memory 0o10 0 none (some 1)),
    ("$,Ah Ai", memory 0o11 2 (some 0) (some 1)),
    ("$, Ai", memory 0o11 1 (some 0) none),
    (",Ah Ai", memory 0o11 1 none (some 0)),
    ("Si $,Ah", memory 0o12 0 (some 1) (some 2)),
    ("Si $,", memory 0o12 0 (some 1) none),
    ("Si ,Ah", memory 0o12 0 none (some 1)),
    ("$,Ah Si", memory 0o13 2 (some 0) (some 1)),
    ("$, Si", memory 0o13 1 (some 0) none),
    (",Ah Si", memory 0o13 1 none (some 0)),
    ("Si $", only (.loadS 0 1)),
    ("Si Sj&Sk", ijk 0o044),
    ("Si #Sk&Sj", fields 0o045 (.register 0) (.register 2) (.register 1)),
    ("Si Sj\\Sk", ijk 0o046),
    ("Si #Sj\\Sk", ijk 0o047),
    ("Si Sj!Si&Sk", (fields 0o050 (.register 0) (.register 1) (.register 3)).sameRegister 0 2),
    ("Si Sj!Sk", ijk 0o051),
    ("Si Sk", fields 0o051 (.register 0) (.fixed 0) (.register 1)),
    ("S0 Si<$", shift 0o052 false),
    ("S0 Si>$", shift 0o053 true),
    ("Si Si<$", (shift 0o054 false).sameRegister 0 1),
    ("Si Si>$", (shift 0o055 true).sameRegister 0 1),
    ("Si Si,Sj<Ak", (fields 0o056 (.register 0) (.register 2) (.register 3)).sameRegister 0 1),
    ("Si Sj,Si>Ak", (fields 0o057 (.register 0) (.register 1) (.register 3)).sameRegister 0 2),
    ("Si Sj+Sk", ijk 0o060),
    ("Si Sj-Sk", ijk 0o061),
    ("Si -Sk", fields 0o061 (.register 0) (.fixed 0) (.register 1)),
    ("Si Sj+FSk", ijk 0o062),
    ("Si Sj-FSk", ijk 0o063),
    ("Si Sj*FSk", ijk 0o064),
    ("Si Sj*HSk", ijk 0o065),
    ("Si Sj*RSk", ijk 0o066),
    ("Si Sj*ISk", ijk 0o067),
    ("Si /HSj", fields 0o070 (.register 0) (.register 1) (.fixed 0)),
    ("Si Ak", fields 0o071 (.register 0) (.fixed 0) (.register 1)),
    ("Si +Ak", fields 0o071 (.register 0) (.fixed 1) (.register 1)),
    ("Si +FAk", fields 0o071 (.register 0) (.fixed 2) (.register 1)),
    ("Si RT", fields 0o072 (.register 0) (.fixed 0) (.fixed 0)),
    ("Si SM", fields 0o072 (.register 0) (.fixed 0) (.fixed 2)),
    ("Si STj", fields 0o072 (.register 0) (.register 1) (.fixed 3)),
    ("Si VM", fields 0o073 (.register 0) (.fixed 0) (.fixed 0)),
    ("Si SRj", fields 0o073 (.register 0) (.register 1) (.fixed 1)),
    ("SM Si", fields 0o073 (.register 1) (.fixed 0) (.fixed 2)),
    ("STj Si", fields 0o073 (.register 1) (.register 0) (.fixed 3)),
    ("Si Tjk", wide 0o074 (.register 0) (.register 1)),
    ("Tjk Si", wide 0o075 (.register 1) (.register 0)),
    ("Si Vj,Ak", ijk 0o076),
    ("Vi,Ak Sj", fields 0o077 (.register 0) (.register 2) (.register 1)),
    ("Vi Sj&Vk", ijk 0o140),
    ("Vi Vj&Vk", ijk 0o141),
    ("Vi Sj!Vk", ijk 0o142),
    ("Vi Vk", fields 0o142 (.register 0) (.fixed 0) (.register 1)),
    ("Vi Vj!Vk", ijk 0o143),
    ("Vi Sj\\Vk", ijk 0o144),
    ("Vi Vj\\Vk", ijk 0o145),
    ("Vi Sj!Vk&VM", ijk 0o146),
    ("Vi Vj!Vk&VM", ijk 0o147),
    ("Vi Vj<Ak", ijk 0o150),
    ("Vi Vj>Ak", ijk 0o151),
    ("Vi Vj,Vj<Ak", (fields 0o152 (.register 0) (.register 1) (.register 3)).sameRegister 1 2),
    ("Vi Vj,Vj>Ak", (fields 0o153 (.register 0) (.register 1) (.register 3)).sameRegister 1 2),
    ("Vi Sj+Vk", ijk 0o154),
    ("Vi Vj+Vk", ijk 0o155),
    ("Vi Sj-Vk", ijk 0o156),
    ("Vi Vj-Vk", ijk 0o157),
    ("Vi Sj*FVk", ijk 0o160),
    ("Vi Vj*FVk", ijk 0o161),
    ("Vi Sj*HVk", ijk 0o162),
    ("Vi Vj*HVk", ijk 0o163),
    ("Vi Sj*RVk", ijk 0o164),
    ("Vi Vj*RVk", ijk 0o165),
    ("Vi Sj*IVk", ijk 0o166),
    ("Vi Vj*IVk", ijk 0o167),
    ("Vi Sj+FVk", ijk 0o170),
    ("Vi Vj+FVk", ijk 0o171),
    ("Vi Sj-FVk", ijk 0o172),
    ("Vi Vj-FVk", ijk 0o173),
    ("Vi /HVj", fields 0o174 (.register 0) (.register 1) (.fixed 0)),
    ("Vi PVj", fields 0o174 (.register 0) (.register 1) (.fixed 1)),
    ("Vi QVj", fields 0o174 (.register 0) (.register 1) (.fixed 2)),
    ("VM Vj,Z", fields 0o175 (.fixed 0) (.register 1) (.fixed 0)),
    ("VM Vj,N", fields 0o175 (.fixed 0) (.register 1) (.fixed 1)),
    ("VM Vj,P", fields 0o175 (.fixed 0) (.register 1) (.fixed 2)),
    ("VM Vj,M", fields 0o175 (.fixed 0) (.register 1) (.fixed 3)),
    ("Vi ,A0,Ak", fields 0o176 (.register 0) (.fixed 0) (.register 2)),
    (",A0,Ak Vj", fields 0o177 (.fixed 0) (.register 2) (.register 1))
  ]

/-- The patterns of all instructions. -/
def table : Matcher Rule :=
  match Matcher.ofPatterns rules with
  | .ok matcher => matcher
  | .error _ => .empty

end InstructionSet

end CrayAssembler
