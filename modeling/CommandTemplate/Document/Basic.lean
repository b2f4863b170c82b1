/-!
# Documents

Values with a structure, as a settings file holds them, in whichever format they are written.
Numbers and times are kept as they were written, since nothing here computes with them.
-/
namespace CommandTemplate

inductive Document where
  | null
  | boolean (b : Bool)
  | number (written : String)
  | time (written : String)
  | text (s : String)
  | list (elements : List Document)
  | table (entries : List (String × Document))
  deriving Inhabited

end CommandTemplate
