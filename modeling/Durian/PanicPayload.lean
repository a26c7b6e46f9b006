import Durian.Base.Utf8

/-!
# Panic payloads

A contract that gives up hands over a message, a file name, a line and a column. The reader keeps
the bytes it has not consumed; a read that wants more of them than there are fails and consumes
none.
-/

namespace Durian

open Effects

structure PanicPayload where
  msg : Option String
  file : Option String
  line : Option UInt32
  col : Option UInt32
  deriving DecidableEq

namespace PanicPayload

/-- A read wanted more bytes than were left. -/
inductive ReadError where
  | unexpectedEof
  deriving DecidableEq

abbrev Cursor (α : Type) := Exec Bytes ReadError α

def readExact (n : Nat) : Cursor Bytes := fun rest =>
  if n ≤ rest.length then (.ok (rest.take n), rest.drop n)
  else (.fail (.err .unexpectedEof), rest)

def readU32 : Cursor UInt32 := do
  let word ← readExact 4
  pure (UInt32.ofNat (natOfLittleEndian word))

def readString : Cursor (Option String) := do
  let stringLen ← readU32
  if stringLen = 0 then
    pure none
  else
    let content ← readExact stringLen.toNat
    pure (some (fromUtf8Lossy content))

/-- The value a read returns, if it returns one, and the bytes left after it. -/
def ok {α : Type} (read : Cursor α) (rest : Bytes) : Option α × Bytes :=
  match read rest with
  | (.ok a, rest') => (some a, rest')
  | (.fail _, rest') => (none, rest')

/-- The length a string begins with. Its buffer is allocated before the string is read. -/
def bufferLen (rest : Bytes) : List Nat :=
  match readU32 rest with
  | (.ok stringLen, _) => if stringLen = 0 then [] else [stringLen.toNat]
  | (.fail _, _) => []

/-- The buffers that `decode` allocates on its way. -/
def buffers (raw : Bytes) : List Nat :=
  bufferLen raw ++ bufferLen (ok readString raw).2

def decode (raw : Bytes) : PanicPayload :=
  let (msg, rest) := ok readString raw
  let (file, rest) := ok readString rest
  let (line, rest) := ok readU32 rest
  let (col, _) := ok readU32 rest
  { msg := msg.join, file := file.join, line := line, col := col }

end PanicPayload

end Durian
