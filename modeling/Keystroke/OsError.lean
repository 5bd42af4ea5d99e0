/-!
# Errors of the operating system

A failed system call leaves a number. Each number has a text, and a few of them decide what a
program does next.
-/

namespace Keystroke

/-- The error of a failed system call, by its number. -/
structure OsError where
  code : Nat
  deriving DecidableEq, Repr, Inhabited

namespace OsError

def notPermitted : OsError := ⟨1⟩
def notFound : OsError := ⟨2⟩
def interrupted : OsError := ⟨4⟩
def wouldBlock : OsError := ⟨11⟩
def permissionDenied : OsError := ⟨13⟩
def fileExists : OsError := ⟨17⟩
def notDirectory : OsError := ⟨20⟩
def isDirectory : OsError := ⟨21⟩
def notTypewriter : OsError := ⟨25⟩
def nameTooLong : OsError := ⟨36⟩

def texts : List (Nat × String) :=
  [(1, "Operation not permitted"), (2, "No such file or directory"),
   (3, "No such process"), (4, "Interrupted system call"), (5, "Input/output error"),
   (6, "No such device or address"), (7, "Argument list too long"), (8, "Exec format error"),
   (9, "Bad file descriptor"), (10, "No child processes"),
   (11, "Resource temporarily unavailable"), (12, "Cannot allocate memory"),
   (13, "Permission denied"), (14, "Bad address"), (15, "Block device required"),
   (16, "Device or resource busy"), (17, "File exists"), (18, "Invalid cross-device link"),
   (19, "No such device"), (20, "Not a directory"), (21, "Is a directory"),
   (22, "Invalid argument"), (23, "Too many open files in system"), (24, "Too many open files"),
   (25, "Inappropriate ioctl for device"), (26, "Text file busy"), (27, "File too large"),
   (28, "No space left on device"), (29, "Illegal seek"), (30, "Read-only file system"),
   (31, "Too many links"), (32, "Broken pipe"), (36, "File name too long"),
   (40, "Too many levels of symbolic links")]

def text (e : OsError) : String :=
  (texts.lookup e.code).getD ("Unknown error " ++ toString e.code)

def message (e : OsError) : String := e.text ++ " (os error " ++ toString e.code ++ ")"

def isDenial (e : OsError) : Bool := e == permissionDenied || e == notPermitted

end OsError

end Keystroke
