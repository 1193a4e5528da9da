import MetadataDump.Dump.Text
import MetadataDump.Proofs.Text.Lines

namespace MetadataDump.Dump

inductive LineKind
  | header (image : Nat)
  | failureName | failureMessage
  | blank | space
  | attribute (indent : String)
  | diagnostic (indent : String)
  | serializable
  | declaration (category : Category)
  | braces | openBrace | closeBrace
  | title (members : String)
  | field | property | address | signature
  | genericsStart | groupBar | groupAddress | instantiation | genericsEnd
  deriving DecidableEq, Repr

/-- How the lines of a kind begin and end. -/
inductive LineKind.Written : LineKind → String → Prop
  | header (image : Nat) (rest : String) :
    Written (.header image) ("// Image " ++ toString image ++ ": " ++ rest)
  | failureName (name : String) :
    Written .failureName ("/*ERROR: Some errors in dumping image " ++ name)
  | failureMessage (message : String) : Written .failureMessage (message ++ "*/")
  | blank : Written .blank ""
  | space (name : String) : Written .space ("// Namespace: " ++ name)
  | attribute (indent text rest : String) :
    Written (.attribute indent) (indent ++ "[" ++ text ++ "]" ++ rest)
  | diagnostic (indent message : String) : Written (.diagnostic indent)
    (indent ++ "/* Undecodable custom attribute data: " ++ message ++ " */")
  | serializable : Written .serializable "[Serializable]"
  | declaration (front : String) (category : Category) (back : String) :
    Written (.declaration category) (front ++ category.keyword ++ " " ++ back)
  | braces : Written .braces "\x7b\x7d"
  | openBrace : Written .openBrace "\x7b"
  | closeBrace : Written .closeBrace "\x7d"
  | title (members : String) : Written (.title members) ("\t// " ++ members)
  | field (front back : String) : Written .field ("\t" ++ front ++ ";" ++ back)
  | property (body : String) : Written .property ("\t" ++ body ++ "\x7d")
  | address (place slot : String) : Written .address ("\t// " ++ place ++ slot)
  | signature (front back : String) : Written .signature ("\t" ++ front ++ "(" ++ back)
  | genericsStart : Written .genericsStart "\t/* GenericInstMethod :"
  | groupBar : Written .groupBar "\t|"
  | groupAddress (address : String) : Written .groupAddress ("\t|-" ++ address)
  | instantiation (name : String) : Written .instantiation ("\t|-" ++ name)
  | genericsEnd : Written .genericsEnd "\t*/"

structure Breaks (text : String) (lines : List String) : Prop where
  eq_join : text = String.join (lines.map (· ++ "\n"))
  isLine : ∀ line ∈ lines, IsLine line

/-- The text is made of one line of each kind, in order. -/
def Laid (kinds : List LineKind) (text : String) : Prop :=
  ∃ lines, Breaks text lines ∧ List.Forall₂ LineKind.Written kinds lines

section Laid

variable {k : LineKind} {ks ls : List LineKind} {s t line : String}

theorem laid_nil : Laid [] "" := ⟨[], ⟨rfl, List.forall_mem_nil _⟩, .nil⟩

theorem laid_line (hk : k.Written line) (hline : IsLine line) : Laid [k] (line ++ "\n") := by
  refine ⟨[line], ⟨?_, List.forall_mem_singleton.2 hline⟩, .cons hk .nil⟩
  simp [String.join_cons]

theorem Laid.append (hs : Laid ks s) (ht : Laid ls t) : Laid (ks ++ ls) (s ++ t) := by
  obtain ⟨lines, ⟨rfl, hlines⟩, hkinds⟩ := hs
  obtain ⟨lines', ⟨rfl, hlines'⟩, hkinds'⟩ := ht
  refine ⟨lines ++ lines', ⟨?_, List.forall_mem_append.2 ⟨hlines, hlines'⟩⟩, ?_⟩
  · rw [List.map_append, String.join_append]
  · exact List.rel_append hkinds hkinds'

theorem laid_flatMap {α β : Type} {layout : α → List LineKind} {text : β → String} {as : List α}
    {bs : List β} (h : List.Forall₂ (fun a b ↦ Laid (layout a) (text b)) as bs) :
    Laid (as.flatMap layout) (String.join (bs.map text)) := by
  induction h with
  | nil => exact laid_nil
  | cons hab _ ih =>
    rw [List.flatMap_cons, List.map_cons, String.join_cons]
    exact hab.append ih

theorem Laid.exists_eq_append (h : Laid ks s) (hs : s ≠ "") : ∃ front, s = front ++ "\n" := by
  obtain ⟨lines, ⟨rfl, _⟩, _⟩ := h
  induction lines using List.reverseRecOn with
  | nil => exact absurd rfl hs
  | append_singleton lines line =>
    refine ⟨String.join (lines.map (· ++ "\n")) ++ line, ?_⟩
    simp [String.join_append, String.join_cons, String.append_assoc]

end Laid

section Words

theorem isLine_keyword (m : Modifier) : IsLine m.keyword := by
  cases m with
  | access a => cases a <;> exact IsLine.literal (by decide)
  | _ => exact IsLine.literal (by decide)

theorem isLine_category (c : Category) : IsLine c.keyword := by
  cases c <;> exact IsLine.literal (by decide)

theorem isLine_direction (d : Direction) : IsLine d.keyword := by
  cases d <;> exact IsLine.literal (by decide)

theorem isLine_words {ws : List String} (h : ∀ w ∈ ws, IsLine w) : IsLine (Text.words ws) := by
  refine IsLine.join fun word hword ↦ ?_
  obtain ⟨w, hw, rfl⟩ := List.mem_map.1 hword
  exact (h w hw).append (IsLine.literal (by decide))

theorem isLine_modifiers (ms : List Modifier) : IsLine (Text.modifiers ms) := by
  refine isLine_words fun w hw ↦ ?_
  obtain ⟨m, _, rfl⟩ := List.mem_map.1 hw
  exact isLine_keyword m

theorem isLine_address (a : Option Address) : IsLine (Text.address a) := by
  cases a with
  | none => exact IsLine.literal (by decide)
  | some a => exact IsLine.address a

theorem isLine_suffix {default : Option Literal} (h : ∀ l ∈ default, IsLine l.suffix) :
    IsLine (Text.suffix default) := by
  cases default with
  | none => exact IsLine.literal (by decide)
  | some l => exact h l rfl

theorem isLine_offsetComment (offset : Option Int32) : IsLine (Text.offsetComment offset) := by
  cases offset with
  | none => exact IsLine.literal (by decide)
  | some n => exact IsLine.append (IsLine.literal (by decide)) (IsLine.upperHex _)

end Words

section Members

variable {c : Config} {attributes : List LineKind}

theorem laid_field {f : FieldDecl} (hattributes : Laid attributes f.attributes)
    (htype : IsLine f.typeName) (hname : IsLine f.name)
    (hdefault : ∀ l ∈ f.default, IsLine l.suffix) :
    Laid (attributes ++ [.field]) (Text.field f) := by
  let front := Text.modifiers f.modifiers ++ f.typeName ++ " " ++ f.name ++ Text.suffix f.default
  let line := "\t" ++ front ++ ";" ++ Text.offsetComment f.offset
  have htext : Text.field f = f.attributes ++ (line ++ "\n") := by
    simp only [Text.field, line, front, String.append_assoc]
  have hblank : IsLine " " := IsLine.literal (by decide)
  have hfront : IsLine front :=
    ((((isLine_modifiers _).append htype).append hblank).append hname).append
      (isLine_suffix hdefault)
  have hline : IsLine line :=
    (hfront.between (by decide) (by decide)).append (isLine_offsetComment _)
  rw [htext]
  exact hattributes.append (laid_line (.field _ _) hline)

theorem isLine_accessorName (p : PropertyDecl) : ∀ name ∈ p.accessorNames, IsLine name := by
  refine List.forall_mem_append.2 ⟨fun name hname ↦ ?_, fun name hname ↦ ?_⟩
  · obtain ⟨_, _, rfl⟩ := Option.map_eq_some_iff.1 (Option.mem_toList.1 hname)
    exact IsLine.literal (by decide)
  · obtain ⟨_, _, rfl⟩ := Option.map_eq_some_iff.1 (Option.mem_toList.1 hname)
    exact IsLine.literal (by decide)

theorem laid_property {p : PropertyDecl} (hattributes : Laid attributes p.attributes)
    (hname : IsLine p.name) (htype : ∀ a ∈ p.primary, IsLine a.typeName) :
    Laid (attributes ++ [.property]) (Text.property p) := by
  have hbody : ∃ body, IsLine body ∧ Text.propertyBody p = body ++ "\x7d" := by
    unfold Text.propertyBody
    cases hprimary : p.primary with
    | none =>
      refine ⟨p.name ++ " \x7b ", hname.append (IsLine.literal (by decide)), ?_⟩
      rw [String.append_assoc]
      rfl
    | some accessor =>
      have hblank : IsLine " " := IsLine.literal (by decide)
      have hnames : IsLine (String.join (p.accessorNames.map (· ++ "; "))) := by
        refine IsLine.join fun text htext ↦ ?_
        obtain ⟨name, hmem, rfl⟩ := List.mem_map.1 htext
        exact (isLine_accessorName p name hmem).append (IsLine.literal (by decide))
      have hmodifiers := isLine_modifiers accessor.modifiers
      have htyped := (hmodifiers.append (htype accessor hprimary)).append hblank
      refine ⟨_, ?_, rfl⟩
      exact ((htyped.append hname).append (IsLine.literal (by decide))).append hnames
  obtain ⟨body, hline, hbody⟩ := hbody
  have htext : Text.property p = p.attributes ++ ("\t" ++ body ++ "\x7d" ++ "\n") := by
    simp only [Text.property, hbody, String.append_assoc]
  rw [htext]
  refine hattributes.append (laid_line (.property body) ?_)
  exact hline.between (by decide) (by decide)

structure ParameterOnLine (p : ParameterDecl) : Prop where
  typeName : IsLine p.typeName
  name : IsLine p.name
  default : ∀ l ∈ p.default, IsLine l.suffix

theorem ParameterOnLine.text {p : ParameterDecl} (h : ParameterOnLine p) :
    IsLine (Text.parameter p) := by
  have hdirection : IsLine (Text.words ([p.direction.keyword].filter (· ≠ ""))) := by
    refine isLine_words fun w hw ↦ ?_
    rw [List.mem_singleton.1 (List.mem_of_mem_filter hw)]
    exact isLine_direction p.direction
  have htype := (hdirection.append h.typeName).append (IsLine.literal (by decide) : IsLine " ")
  exact (htype.append h.name).append (isLine_suffix h.default)

def addressLayout (c : Config) : List LineKind := if c.methodOffsets then [.address] else []

theorem laid_addressLine (c : Config) (d : MethodDecl) :
    Laid (addressLayout c) (Text.addressLine c d) := by
  unfold addressLayout Text.addressLine
  split
  · have hslot : IsLine ((d.slot.map fun slot ↦ " Slot: " ++ toString slot.toNat).getD "") := by
      cases d.slot with
      | none => exact IsLine.literal (by decide)
      | some slot => exact IsLine.labelled (IsLine.literal (by decide)) _
    refine laid_line (.address _ _) (IsLine.append ?_ hslot)
    exact IsLine.append (IsLine.literal (by decide)) (isLine_address _)
  · exact laid_nil

theorem laid_signature {d : MethodDecl} (htype : IsLine d.returnType) (hname : IsLine d.name)
    (hparameters : ∀ p ∈ d.parameters, ParameterOnLine p) :
    Laid [.signature] (Text.signature d) := by
  let front := Text.modifiers d.modifiers ++ (if d.returnsByRef then "ref " else "") ++
    d.returnType ++ " " ++ d.name
  let back := ", ".intercalate (d.parameters.map Text.parameter) ++
    if d.isAbstract then ");" else ") \x7b \x7d"
  have htext : Text.signature d = "\t" ++ front ++ "(" ++ back ++ "\n" := by
    cases h : d.isAbstract <;>
      simp [Text.signature, front, back, h, String.append_assoc]
  have hfront : IsLine front := by
    refine IsLine.append (IsLine.append (IsLine.append (IsLine.append ?_ ?_) htype) ?_) hname
    · exact isLine_modifiers _
    · split <;> exact IsLine.literal (by decide)
    · exact IsLine.literal (by decide)
  have hback : IsLine back := by
    refine IsLine.append (IsLine.intercalate (IsLine.literal (by decide)) fun t ht ↦ ?_) ?_
    · obtain ⟨p, hp, rfl⟩ := List.mem_map.1 ht
      exact (hparameters p hp).text
    · split <;> exact IsLine.literal (by decide)
  rw [htext]
  refine laid_line (.signature front back) ?_
  exact (hfront.between (by decide) (by decide)).append hback

def groupLayout (g : GenericGroup) : List LineKind :=
  .groupBar :: .groupAddress :: g.instances.map fun _ ↦ .instantiation

def genericsLayout (groups : List GenericGroup) : List LineKind :=
  if groups.isEmpty then [] else .genericsStart :: groups.flatMap groupLayout ++ [.genericsEnd]

theorem laid_instantiation {i : Instantiation} (htype : IsLine i.typeName)
    (hname : IsLine i.methodName) : Laid [.instantiation] (Text.instanceLine i) := by
  have htext : Text.instanceLine i = "\t|-" ++ (i.typeName ++ "." ++ i.methodName) ++ "\n" := by
    simp only [Text.instanceLine, String.append_assoc]
  rw [htext]
  refine laid_line (.instantiation _) (IsLine.append (IsLine.literal (by decide)) ?_)
  exact (htype.append (IsLine.literal (by decide))).append hname

theorem laid_group {g : GenericGroup}
    (h : ∀ i ∈ g.instances, IsLine i.typeName ∧ IsLine i.methodName) :
    Laid (groupLayout g) (Text.group g) := by
  have hinstances : Laid (g.instances.flatMap fun _ ↦ [.instantiation])
      (String.join (g.instances.map Text.instanceLine)) := by
    apply laid_flatMap
    rw [List.forall₂_same]
    exact fun i hi ↦ laid_instantiation (h i hi).1 (h i hi).2
  have hbar : Laid [.groupBar] ("\t|" ++ "\n") := laid_line .groupBar (IsLine.literal (by decide))
  have haddress : Laid [.groupAddress] ("\t|-" ++ Text.address g.address ++ "\n") :=
    laid_line (.groupAddress _) (IsLine.append (IsLine.literal (by decide)) (isLine_address _))
  have htext : Text.group g = ("\t|" ++ "\n") ++ (("\t|-" ++ Text.address g.address ++ "\n") ++
      String.join (g.instances.map Text.instanceLine)) := by
    have hstart : "\t|\n\t|-" = "\t|" ++ ("\n" ++ "\t|-") := rfl
    simp only [Text.group, hstart, String.append_assoc]
  have hlaid := hbar.append (haddress.append hinstances)
  rwa [← htext, ← List.map_eq_flatMap] at hlaid

theorem laid_generics {groups : List GenericGroup}
    (h : ∀ g ∈ groups, ∀ i ∈ g.instances, IsLine i.typeName ∧ IsLine i.methodName) :
    Laid (genericsLayout groups) (Text.generics groups) := by
  unfold genericsLayout Text.generics
  split
  · exact laid_nil
  · have hgroups : Laid (groups.flatMap groupLayout) (String.join (groups.map Text.group)) := by
      apply laid_flatMap
      rw [List.forall₂_same]
      exact fun g hg ↦ laid_group (h g hg)
    have hstart : Laid [.genericsStart] "\t/* GenericInstMethod :\n" :=
      laid_line .genericsStart (IsLine.literal (by decide))
    have hend : Laid [.genericsEnd] "\t*/\n" :=
      laid_line .genericsEnd (IsLine.literal (by decide))
    exact (hstart.append hgroups).append hend

theorem laid_method {d : MethodDecl} (hattributes : Laid attributes d.attributes)
    (htype : IsLine d.returnType) (hname : IsLine d.name)
    (hparameters : ∀ p ∈ d.parameters, ParameterOnLine p)
    (hgenerics : ∀ g ∈ d.generics, ∀ i ∈ g.instances, IsLine i.typeName ∧ IsLine i.methodName) :
    Laid (.blank :: attributes ++ addressLayout c ++ [.signature] ++ genericsLayout d.generics)
      (Text.method c d) := by
  have hblank : Laid [.blank] "\n" := laid_line .blank (IsLine.literal (by decide))
  have hfront := (hblank.append hattributes).append (laid_addressLine c d)
  exact (hfront.append (laid_signature htype hname hparameters)).append (laid_generics hgenerics)

end Members

section Sections

variable {layouts layouts' : List (List LineKind)} {s t : String}

def sectionLayout (isShown : Bool) (title : String) (members : List (List LineKind)) :
    List (List LineKind) :=
  if isShown && !members.isEmpty then [.title title :: members.flatten] else []

/-- Sections between braces, with a blank line between any two. -/
def bodyLayout : List (List LineKind) → List LineKind
  | [] => [.braces]
  | first :: rest => .openBrace :: first ++ rest.flatMap (.blank :: ·) ++ [.closeBrace]

/-- A line feed in front of each section ends the line before it. -/
def SectionsLaid (layouts : List (List LineKind)) (text : String) : Prop :=
  ∃ sections, text = String.join (sections.map ("\n" ++ ·)) ∧ List.Forall₂ Laid layouts sections

theorem SectionsLaid.append (hs : SectionsLaid layouts s) (ht : SectionsLaid layouts' t) :
    SectionsLaid (layouts ++ layouts') (s ++ t) := by
  obtain ⟨ss, rfl, hss⟩ := hs
  obtain ⟨ts, rfl, hts⟩ := ht
  refine ⟨ss ++ ts, ?_, List.rel_append hss hts⟩
  rw [List.map_append, String.join_append]

theorem sectionsLaid_memberSection {α : Type} {isShown : Bool} {title : String}
    {write : α → String} {members : List α} (htitle : IsLine title)
    (h : isShown = true → List.Forall₂ (fun layout a ↦ Laid layout (write a)) layouts members) :
    SectionsLaid (sectionLayout isShown title layouts)
      (Text.memberSection isShown title write members) := by
  have hnone : SectionsLaid [] "" := ⟨[], rfl, .nil⟩
  cases isShown with
  | false => exact hnone
  | true =>
    have hmembers := h rfl
    cases hmembers with
    | nil => exact hnone
    | @cons layout a layouts members ha hrest =>
      have hline : Laid [.title title] ("\t// " ++ title ++ "\n") :=
        laid_line (.title title) (IsLine.append (IsLine.literal (by decide)) htitle)
      have htexts := laid_flatMap (.cons ha hrest)
      rw [List.flatMap_id'] at htexts
      refine ⟨["\t// " ++ title ++ "\n" ++ String.join ((a :: members).map write)], ?_,
        .cons (hline.append htexts) .nil⟩
      have hstart : "\n\t// " = "\n" ++ "\t// " := rfl
      simp only [Text.memberSection, List.isEmpty_cons, Bool.not_false, Bool.and_self, if_true,
        hstart, List.map_cons, List.map_nil, String.join_cons, String.join_nil,
        String.append_empty, String.append_assoc]

theorem SectionsLaid.body (h : SectionsLaid layouts t) :
    Laid (bodyLayout layouts) ("\x7b" ++ t ++ "\x7d\n") := by
  have hopen : Laid [.openBrace] ("\x7b" ++ "\n") :=
    laid_line .openBrace (IsLine.literal (by decide))
  have hclose : Laid [.closeBrace] "\x7d\n" := laid_line .closeBrace (IsLine.literal (by decide))
  have hblank : Laid [.blank] "\n" := laid_line .blank (IsLine.literal (by decide))
  obtain ⟨sections, rfl, hsections⟩ := h
  -- The line feed in front of the first section ends the line of the brace. In front of any other
  -- section it is a blank line, since the section before it has ended its last line.
  cases hsections with
  | nil => exact laid_line .braces (IsLine.literal (by decide))
  | @cons first text rest texts hfirst hrest =>
    have hblanks : Laid (rest.flatMap (.blank :: ·)) (String.join (texts.map ("\n" ++ ·))) := by
      apply laid_flatMap
      exact hrest.imp fun _ _ hlaid ↦ hblank.append hlaid
    have htext : "\x7b" ++ String.join ((text :: texts).map ("\n" ++ ·)) ++ "\x7d\n" =
        "\x7b" ++ "\n" ++ text ++ String.join (texts.map ("\n" ++ ·)) ++ "\x7d\n" := by
      simp only [List.map_cons, String.join_cons, String.append_assoc]
    rw [htext]
    exact ((hopen.append hfirst).append hblanks).append hclose

end Sections

section Types

variable {c : Config}

theorem laid_header {t : TypeDecl} (hname : IsLine t.name) (hbases : ∀ b ∈ t.bases, IsLine b) :
    Laid [.declaration t.category] (Text.header c t) := by
  have hback : IsLine (t.name ++ Text.bases t.bases ++ Text.indexComment c t.index) := by
    refine IsLine.append (hname.append ?_) ?_
    · unfold Text.bases
      split
      · exact IsLine.literal (by decide)
      · refine IsLine.append (IsLine.literal (by decide)) ?_
        exact IsLine.intercalate (IsLine.literal (by decide)) hbases
    · unfold Text.indexComment
      split
      · exact IsLine.labelled (IsLine.literal (by decide)) _
      · exact IsLine.literal (by decide)
  have htext : Text.header c t = Text.modifiers t.headerModifiers ++ t.category.keyword ++ " " ++
      (t.name ++ Text.bases t.bases ++ Text.indexComment c t.index) ++ "\n" := by
    simp only [Text.header, String.append_assoc]
  rw [htext]
  refine laid_line (.declaration _ _ _) (IsLine.append (IsLine.append ?_ ?_) hback)
  · exact (isLine_modifiers _).append (isLine_category _)
  · exact IsLine.literal (by decide)

theorem laid_attributeLines {t : TypeDecl} {attributes : List LineKind}
    (h : Laid attributes t.attributes) :
    Laid (attributes ++ if t.isSerializable then [.serializable] else []) t.attributeLines := by
  unfold TypeDecl.attributeLines
  refine h.append ?_
  split
  · exact laid_line .serializable (IsLine.literal (by decide))
  · exact laid_nil

theorem laid_space {space : String} (h : IsLine space) :
    Laid [.blank, .space] ("\n// Namespace: " ++ space ++ "\n") := by
  have hblank : Laid [.blank] ("" ++ "\n") := laid_line .blank (IsLine.literal (by decide))
  have hspace : Laid [.space] ("// Namespace: " ++ space ++ "\n") :=
    laid_line (.space _) (IsLine.append (IsLine.literal (by decide)) h)
  have htext : "\n// Namespace: " ++ space ++ "\n" =
      "" ++ "\n" ++ ("// Namespace: " ++ space ++ "\n") := by
    have hstart : "\n// Namespace: " = "" ++ "\n" ++ "// Namespace: " := rfl
    simp only [hstart, String.append_assoc]
  rw [htext]
  exact hblank.append hspace

theorem laid_type {t : TypeDecl} {attributes : List LineKind} {sections : List (List LineKind)}
    (hspace : IsLine t.space)
    (hattributes : Laid attributes (if c.attributes then t.attributeLines else ""))
    (hname : IsLine t.name) (hbases : ∀ b ∈ t.bases, IsLine b)
    (hsections : SectionsLaid sections (Text.memberSection c.fields "Fields" Text.field t.fields ++
      Text.memberSection c.properties "Properties" Text.property t.properties ++
      Text.memberSection c.methods "Methods" (Text.method c) t.methods)) :
    Laid ([.blank, .space] ++ attributes ++ [.declaration t.category] ++ bodyLayout sections)
      (Text.type c t) := by
  have hheader : Laid [.declaration t.category] (Text.header c t) := laid_header hname hbases
  have htop := (laid_space hspace).append hattributes
  have hlaid := (htop.append hheader).append hsections.body
  unfold Text.type
  simpa only [String.append_assoc] using hlaid

theorem laid_imageLine {o : Outcome} (h : IsLine o.name) :
    Laid [.header o.index] (Text.imageLine o) := by
  have hmark : IsLine ("// Image " ++ toString o.index ++ ": ") :=
    IsLine.append (IsLine.labelled (IsLine.literal (by decide)) _) (IsLine.literal (by decide))
  have hrest : IsLine (o.name ++ " - " ++ toString o.typeStart.toNat) :=
    IsLine.labelled (h.append (IsLine.literal (by decide))) _
  have htext : Text.imageLine o = "// Image " ++ toString o.index ++ ": " ++
      (o.name ++ " - " ++ toString o.typeStart.toNat) ++ "\n" := by
    simp only [Text.imageLine, String.append_assoc]
  rw [htext]
  exact laid_line (.header _ _) (hmark.append hrest)

theorem laid_failure [Places] {f : Failure} (hname : IsLine f.name)
    (herror : IsLine f.error.message) :
    Laid [.failureName, .failureMessage] (Text.failure f) := by
  have hfirst : Laid [.failureName] ("/*ERROR: Some errors in dumping image " ++ f.name ++ "\n") :=
    laid_line (.failureName _) (IsLine.append (IsLine.literal (by decide)) hname)
  have hsecond : Laid [.failureMessage] (f.error.message ++ "*/" ++ "\n") :=
    laid_line (.failureMessage _) (herror.append (IsLine.literal (by decide)))
  have htext : Text.failure f = "/*ERROR: Some errors in dumping image " ++ f.name ++ "\n" ++
      (f.error.message ++ "*/" ++ "\n") := by
    have hend : "*/\n" = "*/" ++ "\n" := rfl
    unfold Text.failure
    simp only [hend, String.append_assoc]
  rw [htext]
  exact hfirst.append hsecond

end Types

end MetadataDump.Dump
