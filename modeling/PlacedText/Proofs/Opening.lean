import PlacedText.Opening
import PlacedText.Proofs.Stream.Decoding

/-!
# Readers of bytes

Bytes come from memory, from a file or from a scripted stream (`Origin.Delivers`).  Whichever it is,
a reader that is opened on them reads a decoded stream, so that what is known of the decoding of
runs is known of the reader's device (`Reader.exists_device_of_names`).  This is about readers that
have room for every size; what becomes of it with less room is another question.

`Origin.Gives b o` says that the bytes `b` come first, in pieces of any size, and nothing after
them.
-/

namespace PlacedText

namespace Labels

/-- The labels name an encoding and a policy. -/
structure Names (l : Labels) (e : Encoding) (p : Policy) : Prop where
  problem : (Label.problem? l.encoding <|> Label.surrogates? l.policy) = none
  encoding : Codec.ofLabel? l.encoding = some (.encoding e)
  policy : Policy.ofLabel l.policy = p

theorem Names.decoder_eq {l : Labels} {e : Encoding} {p : Policy} (h : l.Names e p) :
    l.decoder = .ok (Decoder.start e p) := by
  rw [decoder, h.problem, h.encoding, h.policy]

/-- The labels name a scheme without a byte order mark, and a policy. -/
structure Name (l : Labels) (s : Scheme) (p : Policy) : Prop where
  problem : (Label.problem? l.encoding <|> Label.surrogates? l.policy) = none
  encoding : Codec.ofLabel? l.encoding = some (.encoding (.plain s))
  policy : Policy.ofLabel l.policy = p

theorem Name.names {l : Labels} {s : Scheme} {p : Policy} (h : l.Name s p) :
    l.Names (.plain s) p :=
  ⟨h.problem, h.encoding, h.policy⟩

/-- The name of UTF-8 goes with the name of any policy. -/
theorem name_utf8 {name : String} {p : Policy} (h : (name, p) ∈ Policy.labels) :
    Name ⟨text "utf-8", text name⟩ .utf8 p where
  problem := by
    have hall : ∀ entry ∈ Policy.labels,
        (Label.problem? (text "utf-8") <|> Label.surrogates? (text entry.1)) = none := by decide
    exact hall (name, p) h
  encoding := by
    have hutf8 : Codec.ofLabel? (text "utf-8") = some (.encoding (.plain .utf8)) := by
      decide +kernel
    exact hutf8
  policy := by
    have hall : ∀ entry ∈ Policy.labels, Policy.ofLabel (text entry.1) = entry.2 := by decide
    exact hall (name, p) h

/-- The encodings that have two byte orders or begin with a mark, by their common names. -/
def encodings : List (String × Encoding) := [
  ("utf-16-le", .plain (.utf16 .little)),
  ("utf-16-be", .plain (.utf16 .big)),
  ("utf-32-le", .plain (.utf32 .little)),
  ("utf-32-be", .plain (.utf32 .big)),
  ("utf-16", .marked .utf16),
  ("utf-32", .marked .utf32),
  ("utf-8-sig", .marked .utf8)]

/-- The names of these encodings go with the name of any policy. -/
theorem names_of_mem {name policyName : String} {e : Encoding} {p : Policy}
    (h : (name, e) ∈ encodings) (hp : (policyName, p) ∈ Policy.labels) :
    Names ⟨text name, text policyName⟩ e p where
  problem := by
    have hencoding : ∀ entry ∈ encodings, Label.problem? (text entry.1) = none := by decide
    have hpolicy : ∀ entry ∈ Policy.labels, Label.surrogates? (text entry.1) = none := by decide
    rw [hencoding (name, e) h, hpolicy (policyName, p) hp]
    rfl
  encoding := by
    have hall : ∀ entry ∈ encodings, Codec.ofLabel? (text entry.1) = some (.encoding entry.2) := by
      decide +kernel
    exact hall (name, e) h
  policy := by
    have hall : ∀ entry ∈ Policy.labels, Policy.ofLabel (text entry.1) = entry.2 := by decide
    exact hall (policyName, p) hp

end Labels

namespace Origin

/-- The runs of bytes that an origin delivers. -/
inductive Delivers : List Bytes → Origin → Prop where
  | bytes (b : Bytes) : Delivers [b] (.bytes b)
  | file (b : Bytes) : Delivers [b] (.file (.regular b))
  | script {s : Script UInt8} (sound : Script.Sound s.items) :
      Delivers (Script.runs s.items) (.byteScript s)

/-- The origin delivers the bytes in one run, and nothing in later ones. -/
def Gives (b : Bytes) (o : Origin) : Prop :=
  ∃ runs, o.Delivers runs ∧ runs.headD [] = b ∧ ∀ run ∈ runs.tail, run = []

/-- Answers without bytes make empty runs. -/
theorem runs_of_empty {items : List (ScriptItem UInt8)}
    (h : ∀ item ∈ items, item = .units [] ∨ item = .notReady) :
    ∀ run ∈ Script.runs items, run = [] := by
  induction items with
  | nil => exact fun run hrun => absurd hrun List.not_mem_nil
  | cons item items ih =>
    have hlater : ∀ run ∈ Script.runs items, run = [] :=
      ih fun item hitem => h item (List.mem_cons_of_mem _ hitem)
    intro run hrun
    rcases h item List.mem_cons_self with rfl | rfl
    · rcases List.mem_cons.1 hrun with rfl | hrun
      · rfl
      · exact hlater run hrun
    · rcases List.mem_cons.1 hrun with rfl | hrun
      · rfl
      · exact hlater run hrun

/-- Non-empty pieces, and then answers without bytes, give the bytes of the pieces. -/
theorem gives_pieces {pieces : List Bytes} {later : List (ScriptItem UInt8)}
    (hpieces : ∀ piece ∈ pieces, piece ≠ [])
    (hlater : ∀ item ∈ later, item = .units [] ∨ item = .notReady) :
    Gives pieces.flatten (.byteScript { items := pieces.map .units ++ later }) := by
  have hsound : Script.Sound (pieces.map .units ++ later) := by
    intro message hmem
    rcases List.mem_append.1 hmem with hmem | hmem
    · obtain ⟨piece, -, heq⟩ := List.mem_map.1 hmem
      cases heq
    · rcases hlater _ hmem with heq | heq <;> cases heq
  refine ⟨_, .script hsound, ?_⟩
  show (Script.runs (pieces.map .units ++ later)).headD [] = pieces.flatten ∧ _
  clear hsound
  induction pieces with
  | nil =>
    have hempty := runs_of_empty hlater
    rw [List.map_nil, List.nil_append]
    constructor
    · cases hruns : Script.runs later with
      | nil => rfl
      | cons run runs => exact hempty run (hruns ▸ List.mem_cons_self)
    · exact fun run hrun => hempty run (List.mem_of_mem_tail hrun)
  | cons piece pieces ih =>
    obtain ⟨hhead, htail⟩ := ih fun p hp => hpieces p (List.mem_cons_of_mem _ hp)
    rw [List.map_cons, List.cons_append, Script.runs_units (hpieces piece List.mem_cons_self),
      hhead]
    exact ⟨rfl, htail⟩

/-- A single piece gives its bytes. -/
theorem gives_single {b : Bytes} (h : b ≠ []) : Gives b (.byteScript { items := [.units b] }) := by
  have hgives : Gives [b].flatten (.byteScript { items := [b].map .units ++ [] }) :=
    gives_pieces (List.forall_mem_singleton.2 h) fun _ hitem => absurd hitem List.not_mem_nil
  rw [List.flatten_singleton] at hgives
  exact hgives

end Origin

/-- **Opening.**  A reader of bytes can be opened, and with room for every size its device passes
over whatever texts the decoding of the bytes passes over. -/
theorem Reader.exists_device_of_names {settings : Settings} {o : Origin} {runs : List Bytes}
    {e : Encoding} {p : Policy} (hnames : settings.labels.Names e p) (ho : o.Delivers runs) :
    ∃ device : Device,
      Reader.open? largestSize settings o = .ok (Reader.ofSource { stream := device } settings) ∧
      ∀ {F : Fault → Prop} {short : Prop} {ts : List Text},
        (∀ {β : Type} [FiniteStream UInt8 β] {bytes : β}, PlacedText.Delivers runs bytes →
          Passes largestSize F short ts
            ({ device := bytes, decoder := Decoder.start e p } : Decoded β)) →
        Passes largestSize F short ts device := by
  have hdecoded {β : Type} (bytes : β) : settings.labels.decoded bytes =
      .ok { device := bytes, decoder := Decoder.start e p } := by
    rw [Labels.decoded, hnames.decoder_eq]
  cases ho with
  | bytes b =>
    refine ⟨_, by rw [open?, Source.open?, Device.open?, hdecoded]; rfl, fun hpasses => ?_⟩
    exact Passes.device (fun _ _ => rfl) (hpasses (Memory.delivers_ofBytes b))
  | file b =>
    refine ⟨_, by rw [open?, Source.open?, Device.open?, hdecoded]; rfl, fun hpasses => ?_⟩
    exact Passes.device (fun _ _ => rfl) (hpasses (Memory.delivers_ofBytes b).buffered)
  | script sound =>
    refine ⟨_, by rw [open?, Source.open?, Device.open?, hdecoded]; rfl, fun hpasses => ?_⟩
    exact Passes.device (fun _ _ => rfl) (hpasses (Script.delivers_runs sound).buffered)

/-- Opening with labels that name a scheme without a byte order mark. -/
theorem Reader.exists_device_of_delivers {settings : Settings} {o : Origin} {runs : List Bytes}
    {s : Scheme} {p : Policy} (hname : settings.labels.Name s p) (ho : o.Delivers runs) :
    ∃ device : Device,
      Reader.open? largestSize settings o = .ok (Reader.ofSource { stream := device } settings) ∧
      ∀ {F : Fault → Prop} {short : Prop} {ts : List Text},
        (∀ {β : Type} [FiniteStream UInt8 β] {bytes : β}, PlacedText.Delivers runs bytes →
          Passes largestSize F short ts
            ({ device := bytes, decoder := Decoder.start (.plain s) p } : Decoded β)) →
        Passes largestSize F short ts device :=
  exists_device_of_names hname.names ho

end PlacedText
