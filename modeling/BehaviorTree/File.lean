/-! # Files

What a program finds at the place of a file: bytes, which are a text if they are well-formed UTF-8,
or the reason why nothing can be read there. -/

namespace BehaviorTree

/-- Why a file gives no text. -/
inductive FileFault where
  | missing
  | notDirectory
  | isDirectory
  | nameTooLong
  | notText
  deriving DecidableEq

def FileFault.message : FileFault → String
  | .missing => "No such file or directory (os error 2)"
  | .notDirectory => "Not a directory (os error 20)"
  | .isDirectory => "Is a directory (os error 21)"
  | .nameTooLong => "File name too long (os error 36)"
  | .notText => "stream did not contain valid UTF-8"

/-- What stands at the place of a file. -/
inductive File where
  | bytes (content : ByteArray)
  | unreadable (fault : FileFault)

namespace File

def ofText (s : String) : File := .bytes s.toUTF8

def text : File → Except FileFault String
  | .unreadable fault => .error fault
  | .bytes content => match String.fromUTF8? content with
    | some s => .ok s
    | none => .error .notText

@[simp] theorem text_ofText (s : String) : (ofText s).text = .ok s := by
  simp only [ofText, text, String.fromUTF8?, String.toUTF8_eq_toByteArray, dif_pos s.isValidUTF8]
  rfl

end File

end BehaviorTree
