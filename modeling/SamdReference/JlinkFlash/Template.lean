import SamdReference.JlinkFlash.FindDeployments

/-!
# The command template

`flash.jlink` is rendered with `str.format`: a name in braces stands for its field and
doubled braces for themselves. Conversions, format specifications, attributes and indices
have no place in the templates here.
-/

namespace JlinkFlash

/-- Where `str.format` stands in a template. -/
inductive Scan where
  | text
  | opened
  | closed
  | field (name : Text)

/-- `template.format(**fields)` for plain field names: doubled braces stand for themselves
and a name in braces for its field. -/
def formatFrom (fields : Text → Option Text) : Scan → Text → Option Text
  | .text, [] => some []
  | _, [] => none
  | .text, c :: rest =>
      if c = '\x7b' then formatFrom fields .opened rest
      else if c = '\x7d' then formatFrom fields .closed rest
      else (formatFrom fields .text rest).map (c :: ·)
  | .opened, c :: rest =>
      if c = '\x7b' then (formatFrom fields .text rest).map (c :: ·)
      else if c = '\x7d' then none
      else formatFrom fields (.field [c]) rest
  | .closed, c :: rest =>
      if c = '\x7d' then (formatFrom fields .text rest).map (c :: ·) else none
  | .field name, c :: rest =>
      if c = '\x7d' then
        (fields name).bind fun value => (formatFrom fields .text rest).map (value ++ ·)
      else formatFrom fields (.field (name ++ [c])) rest

/-- A character in a field that `str.format` gives another meaning. -/
def isSpecial (c : Char) : Bool := c == '[' || c == '.' || c == '!' || c == ':'

/-- Each field holds nothing but a name. -/
def plainFields : Scan → Text → Bool
  | _, [] => true
  | .text, c :: rest =>
      if c = '\x7b' then plainFields .opened rest
      else if c = '\x7d' then plainFields .closed rest
      else plainFields .text rest
  | .closed, _ :: rest => plainFields .text rest
  | .opened, c :: rest =>
      if c = '\x7b' ∨ c = '\x7d' then plainFields .text rest
      else !isSpecial c && plainFields (.field []) rest
  | .field _, c :: rest =>
      if c = '\x7d' then plainFields .text rest
      else !isSpecial c && plainFields (.field []) rest

/-- A command template whose fields are plain names. -/
structure Template where
  text : Text
  plain : plainFields .text text = true

def Template.format (template : Template) (fields : Text → Option Text) : Option Text :=
  formatFrom fields .text template.text

/-- The fields of the command template. -/
def jlinkFields (binFile flashAddr : Text) (name : Text) : Option Text :=
  if name = "bin_file".toList then some binFile
  else if name = "flash_addr".toList then some flashAddr
  else none

/-- `scripts/flash.jlink` up to the binary. -/
def beforeBinary : Text :=
  "power on\n\nsi SWD\nspeed 4000\nconnect\n\nr // Reset\n\nh // Halt\n\n".toList ++
    "// Load the binary\nloadbin ".toList

/-- `scripts/flash.jlink` after the address. -/
def afterAddress : Text := "\n\nr // Reset\ng // Go\nq // Quit\n".toList

/-- `scripts/flash.jlink`. -/
def flashJlink : Template where
  text := beforeBinary ++ ("\x7bbin_file\x7d, \x7bflash_addr\x7d".toList ++ afterAddress)
  plain := by decide

/-- Plain text stands for itself in a template. -/
theorem formatFrom_plain (fields : Text → Option Text) {plain : Text}
    (solid : plain.all (fun c => c != '\x7b' && c != '\x7d') = true) (rest : Text) :
    formatFrom fields .text (plain ++ rest) =
      (formatFrom fields .text rest).map (plain ++ ·) := by
  induction plain with
  | nil => simp
  | cons c plain ih =>
      simp only [List.all_cons, Bool.and_eq_true, bne_iff_ne] at solid
      obtain ⟨⟨open', close⟩, solid⟩ := solid
      rw [List.cons_append, formatFrom, if_neg open', if_neg close, ih solid, Option.map_map]
      rfl

theorem formatFrom_name (fields : Text → Option Text) {name : Text}
    (solid : name.all (· != '\x7d') = true) (read rest : Text) :
    formatFrom fields (.field read) (name ++ '\x7d' :: rest) =
      (fields (read ++ name)).bind fun value =>
        (formatFrom fields .text rest).map (value ++ ·) := by
  induction name generalizing read with
  | nil => simp [formatFrom]
  | cons c name ih =>
      simp only [List.all_cons, Bool.and_eq_true, bne_iff_ne] at solid
      rw [List.cons_append, formatFrom, if_neg solid.1, ih solid.2, List.append_assoc]
      rfl

/-- A name in braces stands for its field. -/
theorem formatFrom_field (fields : Text → Option Text) (c : Char) (name : Text) {value : Text}
    (first : c ≠ '\x7b' ∧ c ≠ '\x7d') (solid : name.all (· != '\x7d') = true)
    (known : fields (c :: name) = some value) (rest : Text) :
    formatFrom fields .text ('\x7b' :: c :: name ++ '\x7d' :: rest) =
      (formatFrom fields .text rest).map (value ++ ·) := by
  rw [List.cons_append, List.cons_append, formatFrom, if_pos rfl, formatFrom, if_neg first.1,
    if_neg first.2, formatFrom_name fields solid, List.singleton_append, known]
  rfl

/-- The script that loads a binary to an address, resets and starts the device. -/
def loadScript (binFile flashAddr : Text) : Text :=
  beforeBinary ++ (binFile ++ (", ".toList ++ (flashAddr ++ afterAddress)))

/-- The template of the repository renders to that script, whatever the fields hold. -/
theorem format_flashJlink (binFile flashAddr : Text) :
    flashJlink.format (jlinkFields binFile flashAddr) = some (loadScript binFile flashAddr) := by
  have before : beforeBinary.all (fun c => c != '\x7b' && c != '\x7d') = true := by decide
  have after : afterAddress.all (fun c => c != '\x7b' && c != '\x7d') = true := by decide
  have between : ", ".toList.all (fun c => c != '\x7b' && c != '\x7d') = true := by decide
  have last : formatFrom (jlinkFields binFile flashAddr) .text afterAddress =
      some afterAddress := by
    have whole := formatFrom_plain (jlinkFields binFile flashAddr) after []
    rw [List.append_nil] at whole
    rw [whole]
    simp [formatFrom]
  have address := formatFrom_field (jlinkFields binFile flashAddr) 'f' "lash_addr".toList
    (by decide) (by decide) rfl afterAddress
  have binary := formatFrom_field (jlinkFields binFile flashAddr) 'b' "in_file".toList
    (by decide) (by decide) rfl
    (", ".toList ++ ('\x7b' :: 'f' :: "lash_addr".toList ++ '\x7d' :: afterAddress))
  rw [formatFrom_plain _ between, address, last] at binary
  rw [Template.format, flashJlink, formatFrom_plain _ before]
  change (formatFrom (jlinkFields binFile flashAddr) .text
    ('\x7b' :: 'b' :: "in_file".toList ++ '\x7d' ::
      (", ".toList ++ ('\x7b' :: 'f' :: "lash_addr".toList ++ '\x7d' :: afterAddress)))).map _ = _
  rw [binary]
  rfl

end JlinkFlash
