import ByteMachine.Files.Loading
import ByteMachine.Files.Tree
import ByteMachine.Proofs.ImageGrammar
import ByteMachine.Proofs.PlainMemory

/-!
# What loading comes to

A path is read as text, the text is parsed as an image, and the image is put into a memory. Each of
the three can refuse. Main statement: the error tells which of the first two has refused and why,
the third never does, and a memory that comes of it holds the image and nothing else.
-/

namespace ByteMachine

namespace FileReader

variable {reader : FileReader} {path : String}

section Reading

variable {text : String} {cause : ReadError}

theorem readText_of_refused (refused : reader path = .error cause) :
    reader.readText path = .error cause := by
  rw [readText, refused]
  rfl

theorem readText_of_found {bytes : List UInt8} (found : reader path = .ok bytes) :
    reader.readText path = (Text.utf8Decode? bytes).elim (.error .notText) .ok := by
  simp only [readText, found, bind, Except.bind]
  cases Text.utf8Decode? bytes <;> rfl

/-- A text is read where its bytes are found. -/
theorem readText_eq_ok_iff :
    reader.readText path = .ok text ↔ reader path = .ok (Text.utf8Encode text) := by
  cases found : reader path with
  | error cause => simp [readText_of_refused found]
  | ok bytes =>
    rw [readText_of_found found, Except.ok.injEq, eq_comm (a := bytes),
      ← Text.utf8Decode?_eq_some_iff]
    cases Text.utf8Decode? bytes <;> simp

/-- Bytes that are not those of a text are refused as the path itself may be. -/
theorem readText_eq_error_iff :
    reader.readText path = .error cause ↔ reader path = .error cause ∨
      cause = .notText ∧ ∃ bytes, reader path = .ok bytes ∧
        ∀ text, Text.utf8Encode text ≠ bytes := by
  cases found : reader path with
  | error cause => simp [readText_of_refused found]
  | ok bytes =>
    simp only [readText_of_found found, ne_eq, ← Text.utf8Decode?_eq_some_iff, Except.ok.injEq,
      exists_eq_left', reduceCtorEq, false_or]
    cases Text.utf8Decode? bytes <;> simp [eq_comm]

end Reading

section Loading

variable {contents : Except ReadError String} {result : Except LoadError Ram}
  {log : List Log.Entry} {reported : String}

/-- What loading comes to and tells the log, by what is read at the path. -/
inductive Loads (path : String) :
    Except ReadError String → Except LoadError Ram → List Log.Entry → Prop where
  | notFound : Loads path (.error .notFound) (.error (.notFound path)) [opening path]
  | unreadable {cause} : cause ≠ .notFound →
      Loads path (.error cause) (.error (.unreadable path cause)) [opening path]
  | malformed {text cause} : Image.parse text = .error cause →
      Loads path (.ok text) (.error (.malformed path cause)) [opening path]
  | loaded {text image ram} : Image.parse text = .ok image → ram.Holds image →
      Loads path (.ok text) (.ok ram) [opening path, programSize image.length]

theorem loads (reader : FileReader) (path : String) :
    Loads path (reader.readText path) (reader.loadRam path).1 (reader.loadRam path).2 := by
  unfold loadRam
  split
  case h_1 unread =>
    rw [unread]
    exact .notFound
  case h_2 cause other unread =>
    rw [unread]
    exact .unreadable fun notFound => other notFound
  case h_3 text read =>
    rw [read]
    split
    case h_1 parsed => exact .malformed parsed
    case h_2 image parsed =>
      rw [Image.ofImage_of_parse parsed]
      exact .loaded parsed (Bank.holds_ofImagePrefix image)

/-- What is read leaves no choice: a memory has no cells but those that hold the image. -/
theorem Loads.unique {result' : Except LoadError Ram} {log' : List Log.Entry}
    (loads : Loads path contents result log) (loads' : Loads path contents result' log') :
    result = result' ∧ log = log' := by
  cases loads with
  | notFound =>
    cases loads' with
    | notFound => exact ⟨rfl, rfl⟩
    | unreadable other => exact absurd rfl other
  | unreadable other =>
    cases loads' with
    | notFound => exact absurd rfl other
    | unreadable _ => exact ⟨rfl, rfl⟩
  | malformed parsed =>
    cases loads' with
    | malformed parsed' =>
      cases parsed.symm.trans parsed'
      exact ⟨rfl, rfl⟩
    | loaded parsed' _ => cases parsed.symm.trans parsed'
  | loaded parsed holds =>
    cases loads' with
    | malformed parsed' => cases parsed.symm.trans parsed'
    | loaded parsed' holds' =>
      cases parsed.symm.trans parsed'
      rw [Bank.holds_iff.mp holds, Bank.holds_iff.mp holds']
      exact ⟨rfl, rfl⟩

theorem loadRam_eq_iff : reader.loadRam path = (result, log) ↔
    Loads path (reader.readText path) result log := by
  constructor
  · intro came
    have loads := reader.loads path
    rwa [came] at loads
  · intro loads
    obtain ⟨results, logs⟩ := (reader.loads path).unique loads
    exact Prod.ext results logs

theorem result_eq_iff : (reader.loadRam path).1 = result ↔
    ∃ log, Loads path (reader.readText path) result log := by
  simp only [← loadRam_eq_iff, Prod.ext_iff, exists_and_left, exists_eq', and_true]

theorem loads_notFound_iff :
    (∃ log, Loads path contents (.error (.notFound reported)) log) ↔
      contents = .error .notFound ∧ reported = path := by
  constructor
  · rintro ⟨log, ⟨⟩⟩
    exact ⟨rfl, rfl⟩
  · rintro ⟨rfl, rfl⟩
    exact ⟨_, .notFound⟩

theorem loads_unreadable_iff {cause : ReadError} :
    (∃ log, Loads path contents (.error (.unreadable reported cause)) log) ↔
      contents = .error cause ∧ cause ≠ .notFound ∧ reported = path := by
  constructor
  · rintro ⟨log, loads⟩
    cases loads with
    | unreadable other => exact ⟨rfl, other, rfl⟩
  · rintro ⟨rfl, other, rfl⟩
    exact ⟨_, .unreadable other⟩

theorem loads_malformed_iff {cause : ImageError} :
    (∃ log, Loads path contents (.error (.malformed reported cause)) log) ↔
      ∃ text, contents = .ok text ∧ Image.parse text = .error cause ∧ reported = path := by
  constructor
  · rintro ⟨log, loads⟩
    cases loads with
    | malformed parsed => exact ⟨_, rfl, parsed, rfl⟩
  · rintro ⟨text, rfl, parsed, rfl⟩
    exact ⟨_, .malformed parsed⟩

theorem loads_loaded_iff {ram : Ram} :
    (∃ log, Loads path contents (.ok ram) log) ↔
      ∃ text image, contents = .ok text ∧ Image.parse text = .ok image ∧ ram.Holds image := by
  constructor
  · rintro ⟨log, loads⟩
    cases loads with
    | loaded parsed holds => exact ⟨_, _, rfl, parsed, holds⟩
  · rintro ⟨text, image, rfl, parsed, holds⟩
    exact ⟨_, .loaded parsed holds⟩

end Loading

/-- What comes of loading is told by what is read at the path, and tells it. -/
structure LoadsWhatIsRead (reader : FileReader) (path : String) : Prop where
  text (text : String) :
    reader.readText path = .ok text ↔ reader path = .ok (Text.utf8Encode text)
  unread (cause : ReadError) :
    reader.readText path = .error cause ↔ reader path = .error cause ∨
      cause = .notText ∧ ∃ bytes, reader path = .ok bytes ∧ ∀ text, Text.utf8Encode text ≠ bytes
  notFound (reported : String) :
    (reader.loadRam path).1 = .error (.notFound reported) ↔
      reader.readText path = .error .notFound ∧ reported = path
  unreadable (reported : String) (cause : ReadError) :
    (reader.loadRam path).1 = .error (.unreadable reported cause) ↔
      reader.readText path = .error cause ∧ cause ≠ .notFound ∧ reported = path
  malformed (reported : String) (cause : ImageError) :
    (reader.loadRam path).1 = .error (.malformed reported cause) ↔
      ∃ text, reader.readText path = .ok text ∧ Image.parse text = .error cause ∧ reported = path
  loaded (ram : Ram) :
    (reader.loadRam path).1 = .ok ram ↔
      ∃ text image, reader.readText path = .ok text ∧ Image.parse text = .ok image ∧
        ram.Holds image
  /-- Memory refuses nothing that is parsed. -/
  fits (text : String) (image : List UInt8) : Image.parse text = .ok image →
    image.length ≤ memorySize ∧ ∀ fault, (Bank.ofImage image : Except Fault Ram) ≠ .error fault

/-- Loading gives exactly what the file says, and reports exactly what keeps it from doing so. -/
theorem load_gives_what_is_read (reader : FileReader) (path : String) :
    LoadsWhatIsRead reader path := by
  constructor
  case text => exact fun text => readText_eq_ok_iff
  case unread => exact fun cause => readText_eq_error_iff
  case notFound => exact fun reported => result_eq_iff.trans loads_notFound_iff
  case unreadable => exact fun reported cause => result_eq_iff.trans loads_unreadable_iff
  case malformed => exact fun reported cause => result_eq_iff.trans loads_malformed_iff
  case loaded => exact fun ram => result_eq_iff.trans loads_loaded_iff
  case fits =>
    intro text image parsed
    have made := Image.ofImage_of_parse parsed
    exact ⟨Image.length_le_of_parse parsed, fun fault refused => nomatch made.symm.trans refused⟩

example :
    let tree := FileTree.ofList [("halt", .file (Text.utf8Encode "1 # HLT")), ("bad", .file [0xFF])]
    (tree.reader.loadRam "halt").1.map (·.toList.take 2) = .ok [1, 0] ∧
      (tree.reader.loadRam "bad").1 = .error (.unreadable "bad" .notText) := by decide +kernel

end FileReader

end ByteMachine
