import Blocklist.Log
import Blocklist.Text.Surrogate

/-! # Files by path

What reading a file by its path gives: its bytes, or the cause why there are none. That is for the
system to say. A tree of files below a working folder is one such system, in which the causes can be
decided: a path leads from folder to folder, and only its last part may be a file.
-/

namespace Blocklist

/-- Why a file cannot be read. -/
inductive ReadFailure where
  | missing
  | isFolder
  /-- The path goes on behind a file. -/
  | notFolder
  | denied
  /-- The path, or a part of it, is longer than paths and parts can be. -/
  | tooLong
  /-- Any other cause, by its number and its words. -/
  | other (number : Nat) (words : Text)
  deriving Repr, DecidableEq

namespace ReadFailure

def kind : ReadFailure → Text
  | missing => "FileNotFoundError".toText
  | isFolder => "IsADirectoryError".toText
  | notFolder => "NotADirectoryError".toText
  | denied => "PermissionError".toText
  | tooLong | other _ _ => "OSError".toText

/-- The number and the words that the system has for the cause. -/
def reason : ReadFailure → Text
  | missing => "[Errno 2] No such file or directory".toText
  | isFolder => "[Errno 21] Is a directory".toText
  | notFolder => "[Errno 20] Not a directory".toText
  | denied => "[Errno 13] Permission denied".toText
  | tooLong => "[Errno 36] File name too long".toText
  | other number words => "[Errno ".toText ++ Text.ofCount number ++ "] ".toText ++ words

def toProblem (f : ReadFailure) (path : Text) : Problem :=
  .other f.kind (f.reason ++ ": ".toText ++ Text.Quoted.encode path)

end ReadFailure

/-- Whether a surrogate of a path stands for one of the bytes from 0x80 on, which is not part of a
    character. -/
def CodePoint.isByte (c : CodePoint) : Bool :=
  0xDC80 ≤ c.toNat && c.toNat ≤ 0xDCFF

/-- What is wrong with a path that no file can have, because a surrogate stands for no byte. -/
def Text.pathFault? (path : Text) : Option Text.EncodeFault :=
  (path.zipIdx.find? fun (c, _) => c.isSurrogate && !c.isByte).bind fun
    | (.surrogate offset, position) =>
        let run := (path.drop position).takeWhile CodePoint.isSurrogate
        some ⟨"utf-8".toText, offset, position, run.length - 1⟩
    | _ => none

/-- What reading a file by its path gives, for every path. -/
abbrev Files := Text → Except ReadFailure (List UInt8)

/-- What a path leads to. -/
inductive FileNode where
  | folder
  | file (bytes : List UInt8)
  deriving Repr, DecidableEq

/-- Files and folders below the working folder, each by the parts of its path. -/
abbrev FileTree := List (List Text × FileNode)

namespace FileTree

/-- A tree from paths with slashes between their parts. -/
def ofPaths (nodes : List (Text × FileNode)) : FileTree :=
  nodes.map fun (path, node) => (path.splitOn (.char '/'), node)

/-- What stands at a place. The working folder is there without being listed, and so is every folder
    on the way to something that is. -/
def find? (tree : FileTree) (place : List Text) : Option FileNode :=
  match tree.lookup place with
  | some node => some node
  | none =>
      if place.isEmpty || tree.any fun (known, _) => place.isPrefixOf known then some .folder
      else none

/-- Where a walk has come to. -/
inductive Place where
  /-- Below the working folder. -/
  | inside (parts : List Text) (node : FileNode)
  /-- In a folder that holds the working folder, of which nothing else is known. -/
  | outside

def partLimit : Nat :=
  255

def pathLimit : Nat :=
  4095

/-- How many bytes a code point of a path takes. -/
def byteWidth : CodePoint → Nat
  | .char c => c.utf8Size
  | .surrogate _ => 1

def byteCount : Text → Nat
  | [] => 0
  | c :: rest => byteWidth c + byteCount rest

/-- Walk along the parts of a path. Empty parts and single points stay where they are, but only in a
    folder. -/
def walk (tree : FileTree) : Place → List Text → Except ReadFailure Place
  | place, [] => .ok place
  | .inside _ (.file _), _ :: _ => .error .notFolder
  | .outside, part :: rest =>
      if [[], [.char '.'], [.char '.', .char '.']].contains part then walk tree .outside rest
      else if partLimit < byteCount part then .error .tooLong
      else .error .missing
  | .inside parts .folder, part :: rest =>
      if part = [] ∨ part = [.char '.'] then walk tree (.inside parts .folder) rest
      else if part = [.char '.', .char '.'] then
        if parts = [] then walk tree .outside rest
        else walk tree (.inside parts.dropLast .folder) rest
      else if partLimit < byteCount part then .error .tooLong
      else
        match tree.find? (parts ++ [part]) with
        | some node => walk tree (.inside (parts ++ [part]) node) rest
        | none => .error .missing

/-- The bytes of the file that a path leads to. -/
def read (tree : FileTree) : Files := fun path =>
  if pathLimit < byteCount path then .error .tooLong
  else
    let start := if path.head? = some (.char '/') then .outside else .inside [] .folder
    match walk tree start (path.splitOn (.char '/')) with
    | .error failure => .error failure
    | .ok (.inside _ (.file bytes)) => .ok bytes
    | .ok _ => .error .isFolder

end FileTree

end Blocklist
