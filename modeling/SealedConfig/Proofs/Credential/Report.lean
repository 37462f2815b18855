import SealedConfig.Credential.Health
import SealedConfig.Proofs.Credential.Deciding
import SealedConfig.Proofs.Credential.Telling

/-!
# What is reported of a credential

A report is put together from what is configured, from what is there and from what finding the credential comes to. Of the material
itself only its class counts: whether it can be read, whether it is marked or opens like a PEM file, and how opening it fails. Two
hosts with different material of the same classes are reported alike.
-/

namespace SealedConfig

open Run Outcome

namespace Resolver

/-! ## Reports -/

section

variable (resolver : Resolver) (kind : CredentialKind) (u : World)

/-- Whether a variable or an inline value is set for a kind in a world. -/
def isSet : Bool :=
  ((resolver.probes kind).env.bind (resolver.lookup.setting? u)).isSome ||
    ((resolver.probes kind).inlineKey.bind (resolver.lookup.held? u)).isSome

/-- The paths that are configured for files of a kind in a world. -/
def pathsIn : List String :=
  ((resolver.probes kind).secretFileKey.bind (resolver.lookup.held? u)).toList ++
    ((resolver.probes kind).pathKey.bind (resolver.lookup.held? u)).toList

/-- The report on a kind, with what finding the credential came to. -/
def healthIn (found : Except Failure Credential) : Health where
  kind := kind
  isConfigured := resolver.isSet kind u || !(resolver.pathsIn kind u).isEmpty
  isPresent := resolver.isSet kind u || (resolver.pathsIn kind u).any fun path => (u.stat? path).any FileInfo.isFile
  source := found.toOption.map (·.source)
  failure := match found with
    | .ok _ => none
    | .error failure => some failure.message

end

variable {u w : World} {resolver other : Resolver} {kind : CredentialKind}

theorem valueOf?_run {look : String → StateM World (Option String)} {value : String → Option String}
    (h : ∀ name, look name u = (value name, u)) (name : Option String) : valueOf? look name u = (name.bind value, u) := by
  cases name with
  | none => rfl
  | some name => exact h name

theorem filePaths_run (resolver : Resolver) (kind : CredentialKind) (u : World) :
    (resolver.filePaths (resolver.probes kind) : StateM World (List String)) u = (resolver.pathsIn kind u, u) := by
  have hlook (name : String) := config?_run resolver.lookup name u
  unfold filePaths
  rw [operation_bind (valueOf?_run hlook _), operation_bind (valueOf?_run hlook _)]
  rfl

theorem anyFile_run (paths : List String) (u : World) :
    (anyFile paths : StateM World Bool) u = (paths.any fun path => (u.stat? path).any FileInfo.isFile, u) := by
  induction paths with
  | nil => rfl
  | cons path rest ih =>
    have hfile : (Host.isFile path : StateM World Bool) u = ((u.stat? path).any FileInfo.isFile, u) := rfl
    unfold anyFile
    rw [operation_bind hfile, List.any_cons]
    cases (u.stat? path).any FileInfo.isFile with
    | true => rfl
    | false => exact ih

/-- What reporting on a credential comes to, beside what finding it comes to. -/
theorem health_run (resolver : Resolver) (kind : CredentialKind) (u : World) :
    (resolver.health kind : StateM World Health) u =
      (resolver.healthIn kind u (outcome (resolver.find kind) u).1, (outcome (resolver.find kind) u).2) := by
  have henv (name : String) := env?_run resolver.lookup name u
  have hconfig (key : String) := config?_run resolver.lookup key u
  unfold health
  dsimp only
  rw [operation_bind (valueOf?_run henv _), operation_bind (resolver.filePaths_run kind u), operation_bind (valueOf?_run hconfig _),
    operation_bind (anyFile_run _ u)]
  rcases hfind : outcome (resolver.find kind) u with ⟨failure | credential, after⟩
  · exact operation_bind hfind
  · exact operation_bind hfind

/-- Reporting on a credential changes nothing in a world. -/
theorem onlyTells_health (resolver : Resolver) (kind : CredentialKind) : OnlyTells (resolver.health kind : StateM World Health) := by
  intro u
  rw [health_run]
  exact resolver.onlyTells_find kind u

/-! ## Classes of material -/

/-- Two texts of files are of one class: both or neither is marked or opens like a PEM file, and those that look protected open or fail
to open alike. -/
structure SameText (resolver other : Resolver) (content content' : String) : Prop where
  marked : Envelope.isMarked (trim content') = Envelope.isMarked (trim content)
  pem : KeyFile.pemOpening.toList.isPrefixOf (trim content').toList = KeyFile.pemOpening.toList.isPrefixOf (trim content).toList
  opening : KeyFile.looksProtected content = true → FailAlike (resolver.openFile content) (other.openFile content')

/-- Two files are of one class: there are texts of one class in them, or no texts. -/
def SameFile (resolver other : Resolver) : Except FileFault String → Except FileFault String → Prop
  | .ok content, .ok content' => resolver.SameText other content content'
  | .error _, .error _ => True
  | _, _ => False

/-- Two inline values are of one class: both or neither is marked, and marked ones open or fail to open alike. -/
structure SameValue (resolver other : Resolver) (value value' : String) : Prop where
  marked : Envelope.isMarked value' = Envelope.isMarked value
  opening : Envelope.isMarked value = true → FailAlike (resolver.openInline value) (other.openInline value')

/-- What a hit holds is of one class with what stands at the same place for another resolver in another world. -/
def SameClass (resolver other : Resolver) (w : World) : Hit → Prop
  | .environment _ _ => True
  | .secretFile path content => resolver.SameFile other content (w.files.readText w.here path)
  | .keyFile path content => resolver.SameFile other content (w.files.readText w.here path)
  | .inline key value => ∀ value', other.lookup.held? w key = some value' → resolver.SameValue other value value'

/-- Two hosts resemble each other for a kind: the settings are the same, the same names have values and the same paths lead to regular
files, and the material that is read is of one class. -/
structure Resembles (resolver other : Resolver) (kind : CredentialKind) (u w : World) : Prop where
  settings : other.settings = resolver.settings
  provider : other.provider.isSome = resolver.provider.isSome
  environment : ∀ name, (resolver.probes kind).env = some name →
    (other.lookup.setting? w name).isSome = (resolver.lookup.setting? u name).isSome
  paths : ∀ key, IsFileKey resolver.settings kind key → other.lookup.held? w key = resolver.lookup.held? u key
  regular : ∀ path ∈ resolver.pathsIn kind u, (w.stat? path).any FileInfo.isFile = (u.stat? path).any FileInfo.isFile
  values : ∀ key, (resolver.probes kind).inlineKey = some key →
    (other.lookup.held? w key).isSome = (resolver.lookup.held? u key).isSome
  material : ∀ hit, IsFirst hit (resolver.hits kind u) → resolver.SameClass other w hit

/-! ## Hits side by side -/

/-- A hit in one world and a hit at the same place in another. -/
inductive Hit.Mirrors (other : Resolver) (u w : World) : Hit → Hit → Prop where
  | environment (name value value' : String) : Mirrors other u w (.environment name value) (.environment name value')
  | secretFile {path : String} (hu : (u.stat? path).any FileInfo.isFile = true) (hw : (w.stat? path).any FileInfo.isFile = true) :
    Mirrors other u w (.secretFile path (u.files.readText u.here path)) (.secretFile path (w.files.readText w.here path))
  | keyFile {path : String} (hu : (u.stat? path).any FileInfo.isFile = true) (hw : (w.stat? path).any FileInfo.isFile = true) :
    Mirrors other u w (.keyFile path (u.files.readText u.here path)) (.keyFile path (w.files.readText w.here path))
  | inline {key value value' : String} (h : other.lookup.held? w key = some value') :
    Mirrors other u w (.inline key value) (.inline key value')

/-- A regular file has a text in it or is no text. -/
theorem readText_of_regular {path : String} (h : (u.stat? path).any FileInfo.isFile = true) :
    (∃ content, u.files.readText u.here path = .ok content) ∨ u.files.readText u.here path = .error .invalidText := by
  rw [World.stat?] at h
  rw [FileTree.readText, FileTree.read]
  cases hstat : u.files.stat u.here path with
  | error fault => simp [hstat] at h
  | ok node =>
    cases node with
    | directory mode => simp [hstat, FileNode.isFile] at h
    | file content mode =>
      dsimp only
      cases Bytes.toText? content with
      | none => exact Or.inr rfl
      | some text => exact Or.inl ⟨text, rfl⟩

/-- Regular files of one class have texts of one class in them, or both are no texts. -/
theorem cases_of_sameFile {path : String} (hu : (u.stat? path).any FileInfo.isFile = true)
    (hw : (w.stat? path).any FileInfo.isFile = true)
    (h : resolver.SameFile other (u.files.readText u.here path) (w.files.readText w.here path)) :
    (∃ content content', u.files.readText u.here path = .ok content ∧ w.files.readText w.here path = .ok content' ∧
      resolver.SameText other content content') ∨
      u.files.readText u.here path = .error .invalidText ∧ w.files.readText w.here path = .error .invalidText := by
  rcases readText_of_regular hu with ⟨content, hread⟩ | hread <;> rcases readText_of_regular hw with ⟨content', hread'⟩ | hread' <;>
    rw [hread, hread'] at h
  · exact Or.inl ⟨content, content', hread, hread', h⟩
  · cases h
  · cases h
  · exact Or.inr ⟨hread, hread'⟩

/-- Material that opens or fails to open alike gives credentials from one source, or one failure. -/
theorem parallel_unsealed {result result' : Except Credential.OpenFault String} (h : FailAlike result result')
    (place : String) (source : CredentialSource) (finish : String → String) :
    Parallel (fun a b : Credential => a.source = b.source) (unsealed kind place source finish result)
      (unsealed kind place source finish result') := by
  rcases h.cases with ⟨fault, rfl, rfl⟩ | ⟨text, text', rfl, rfl⟩
  · exact .error _
  · exact .ok rfl

theorem SameText.looksProtected {content content' : String} (h : resolver.SameText other content content') :
    KeyFile.looksProtected content' = KeyFile.looksProtected content := by
  unfold KeyFile.looksProtected
  dsimp only
  rw [h.marked, h.pem]

/-- What is marked looks protected. -/
theorem looksProtected_of_marked {content : String} (h : Envelope.isMarked (trim content) = true) :
    KeyFile.looksProtected content = true := by
  simp [KeyFile.looksProtected, h]

/-- Of hits at one place with material of one class the same is reported. -/
theorem Resembles.parallel_credential (h : resolver.Resembles other kind u w) {hit hit' : Hit} (hmirrors : hit.Mirrors other u w hit')
    (hclass : resolver.SameClass other w hit) :
    Parallel (fun a b : Credential => a.source = b.source) (hit.credential resolver kind) (hit'.credential other kind) := by
  cases hmirrors with
  | environment name value value' => exact .ok rfl
  | @secretFile path hu hw =>
    rcases cases_of_sameFile hu hw hclass with ⟨content, content', hread, hread', hsame⟩ | ⟨hread, hread'⟩
    · rw [hread, hread', Hit.credential, Hit.credential, hsame.marked]
      split
      · rename_i hm
        exact parallel_unsealed (hsame.opening (looksProtected_of_marked hm)) ..
      · exact .ok rfl
    · rw [hread, hread']
      exact .error _
  | @keyFile path hu hw =>
    rcases cases_of_sameFile hu hw hclass with ⟨content, content', hread, hread', hsame⟩ | ⟨hread, hread'⟩
    · rw [hread, hread', Hit.credential, Hit.credential, h.settings, h.provider, hsame.looksProtected]
      split
      · rename_i hopened
        simp only [Bool.and_eq_true] at hopened
        exact parallel_unsealed (hsame.opening hopened.2) ..
      · exact .ok rfl
    · rw [hread, hread']
      exact .error _
  | @inline key value value' hvalue =>
    have hsame := hclass value' hvalue
    rw [Hit.credential, Hit.credential, hsame.marked]
    split
    · rename_i hm
      exact parallel_unsealed (hsame.opening hm) ..
    · exact .ok rfl

theorem Resembles.probes_eq (h : resolver.Resembles other kind u w) : other.probes kind = resolver.probes kind := by
  rw [probes, probes, h.settings]

/-- A file that a key names is named in both worlds, and leads to a regular file in both or in neither. -/
theorem Resembles.namedFile?_eq (h : resolver.Resembles other kind u w) {key : String} (hkey : IsFileKey resolver.settings kind key) :
    other.namedFile? w key = resolver.namedFile? u key := by
  rw [namedFile?, namedFile?, h.paths key hkey]
  cases hheld : resolver.lookup.held? u key with
  | none => rfl
  | some path =>
    have hmem : path ∈ resolver.pathsIn kind u := by
      unfold pathsIn
      rcases hkey with hkey | hkey
      · rw [show (resolver.probes kind).secretFileKey = some key from hkey, Option.bind_some, hheld]
        exact List.mem_append_left _ List.mem_cons_self
      · rw [show (resolver.probes kind).pathKey = some key from hkey, Option.bind_some, hheld]
        exact List.mem_append_right _ List.mem_cons_self
    rw [Option.filter_some, Option.filter_some, h.regular path hmem]

/-- A path that a key names leads to a regular file. -/
theorem regular_of_namedFile? {key path : String} (h : resolver.namedFile? u key = some path) :
    (u.stat? path).any FileInfo.isFile = true := (Option.filter_eq_some_iff.mp h).2

/-- Hits are at the same places on both hosts. -/
theorem Resembles.rel_hits (h : resolver.Resembles other kind u w) :
    List.Forall₂ (Option.Rel (Hit.Mirrors other u w)) (resolver.hits kind u) (other.hits kind w) := by
  have hfile (hitAt : World → String → Hit) {key : String} (hkey : IsFileKey resolver.settings kind key)
      (hmirrors : ∀ path, (u.stat? path).any FileInfo.isFile = true → (w.stat? path).any FileInfo.isFile = true →
        (hitAt u path).Mirrors other u w (hitAt w path)) :
      Option.Rel (Hit.Mirrors other u w) ((resolver.namedFile? u key).map (hitAt u)) ((other.namedFile? w key).map (hitAt w)) := by
    rw [h.namedFile?_eq hkey]
    cases hnamed : resolver.namedFile? u key with
    | none => exact .none
    | some path =>
      exact .some (hmirrors path (regular_of_namedFile? hnamed) (regular_of_namedFile? ((h.namedFile?_eq hkey).trans hnamed)))
  refine .cons ?_ (.cons ?_ (.cons ?_ (.cons ?_ .nil)))
  · unfold environmentHit?
    rw [h.probes_eq]
    cases hname : (resolver.probes kind).env with
    | none => exact .none
    | some name =>
      have hsome := h.environment name hname
      cases hvalue : resolver.lookup.setting? u name <;> cases hvalue' : other.lookup.setting? w name <;>
        simp [hvalue, hvalue'] at hsome ⊢
      exact .environment name _ _
  · unfold secretFileHit?
    rw [h.probes_eq]
    cases hkey : (resolver.probes kind).secretFileKey with
    | none => exact .none
    | some key => exact hfile (fun v path => .secretFile path (v.files.readText v.here path)) (Or.inl hkey) fun _ => .secretFile
  · unfold keyFileHit?
    rw [h.probes_eq]
    cases hkey : (resolver.probes kind).pathKey with
    | none => exact .none
    | some key => exact hfile (fun v path => .keyFile path (v.files.readText v.here path)) (Or.inr hkey) fun _ => .keyFile
  · unfold inlineHit?
    rw [h.probes_eq]
    cases hkey : (resolver.probes kind).inlineKey with
    | none => exact .none
    | some key =>
      have hsome := h.values key hkey
      cases hvalue : resolver.lookup.held? u key <;> cases hvalue' : other.lookup.held? w key <;>
        simp [hvalue, hvalue'] at hsome ⊢
      exact .inline hvalue'

/-- The first of options that are related one by one are related. -/
theorem rel_findSome? {α β : Type} {R : α → β → Prop} {first : List (Option α)} {second : List (Option β)}
    (h : List.Forall₂ (Option.Rel R) first second) : Option.Rel R (first.findSome? id) (second.findSome? id) := by
  induction h with
  | nil => exact .none
  | cons hhead _ ih =>
    cases hhead with
    | some hR => exact .some hR
    | none => exact ih

theorem Resembles.tried_eq (h : resolver.Resembles other kind u w) : other.tried kind w = resolver.tried kind u := by
  unfold tried
  rw [h.probes_eq]
  congr 3
  cases hkey : (resolver.probes kind).pathKey with
  | none => rfl
  | some key => rw [Option.map_some, Option.map_some, h.paths key (Or.inr hkey)]

/-- Finding a credential comes to credentials from one source on both hosts, or to one failure. -/
theorem Resembles.parallel_find (h : resolver.Resembles other kind u w) :
    Parallel (fun a b : Credential => a.source = b.source) (outcome (resolver.find kind) u).1 (outcome (other.find kind) w).1 := by
  have hfirst := rel_findSome? h.rel_hits
  rw [outcome_find, outcome_find]
  rcases exists_isFirst (resolver.hits kind u) with hnone | ⟨hit, hhit⟩
  · have hmisses : (resolver.hits kind u).findSome? id = none := List.findSome?_eq_none_iff.mpr hnone
    rw [hmisses] at hfirst ⊢
    generalize (other.hits kind w).findSome? id = found at hfirst ⊢
    cases hfirst
    rw [h.tried_eq]
    exact .error _
  · rw [hhit.findSome?] at hfirst ⊢
    generalize (other.hits kind w).findSome? id = found at hfirst ⊢
    cases hfirst with
    | some hmirrors => exact h.parallel_credential hmirrors (h.material hit hhit)

/-- On both hosts values are set, or on neither. -/
theorem Resembles.isSet_eq (h : resolver.Resembles other kind u w) : other.isSet kind w = resolver.isSet kind u := by
  unfold isSet
  rw [h.probes_eq]
  congr 1
  · cases hname : (resolver.probes kind).env with
    | none => rfl
    | some name => exact h.environment name hname
  · cases hkey : (resolver.probes kind).inlineKey with
    | none => rfl
    | some key => exact h.values key hkey

theorem Resembles.pathsIn_eq (h : resolver.Resembles other kind u w) : other.pathsIn kind w = resolver.pathsIn kind u := by
  unfold pathsIn
  rw [h.probes_eq]
  congr 2
  · cases hkey : (resolver.probes kind).secretFileKey with
    | none => rfl
    | some key => exact h.paths key (Or.inl hkey)
  · cases hkey : (resolver.probes kind).pathKey with
    | none => rfl
    | some key => exact h.paths key (Or.inr hkey)

/-- Reports are independent of the material. On two hosts with the same settings, where the same names have values, the same paths lead
to regular files and the material that is read is of one class, the reports are the same, whatever the material itself is. -/
theorem health_eq_of_resembles (h : resolver.Resembles other kind u w) :
    ((other.health kind : StateM World Health) w).1 = ((resolver.health kind : StateM World Health) u).1 := by
  have hpresent : ((resolver.pathsIn kind u).any fun path => (w.stat? path).any FileInfo.isFile) =
      (resolver.pathsIn kind u).any fun path => (u.stat? path).any FileInfo.isFile := by
    rw [Bool.eq_iff_iff, List.any_eq_true, List.any_eq_true]
    constructor
    · rintro ⟨path, hpath, hfile⟩
      exact ⟨path, hpath, (h.regular path hpath).symm.trans hfile⟩
    · rintro ⟨path, hpath, hfile⟩
      exact ⟨path, hpath, (h.regular path hpath).trans hfile⟩
  rw [health_run, health_run]
  unfold healthIn
  rw [h.isSet_eq, h.pathsIn_eq, hpresent]
  rcases h.parallel_find.cases with ⟨failure, hfound, hfound'⟩ | ⟨credential, credential', hfound, hfound', hsource⟩
  · rw [hfound, hfound']
  · rw [hfound, hfound']
    dsimp only [Except.toOption, Option.map_some]
    rw [hsource]

/-- A resolver with a master key that keeps key files protected and finds one in its configuration. -/
def keyFileResolver (key : UInt8) : Resolver :=
  ⟨.fixed [] [("Signing:PrivateKeyPath", "k.pem")], some ⟨⟨Vector.replicate 32 key⟩, "app"⟩, { encryptKeyFiles := true }⟩

/-- A world with a text in that key file. -/
def keyFileWorld (content : String) : World where
  files := ⟨[(["k.pem"], .file (Bytes.ofText content) 0o600)]⟩
  here := []
  environment := []
  fallbackHome := none
  now := none
  ticks := 0
  randomness _ := 0
  drawn := 0
  input := []
  output := ""
  complaints := ""
  filter := .silent

/-- Two broken key files under different master keys are reported alike. -/
theorem health_eq_of_resembles_broken :
    (keyFileResolver 1).Resembles (keyFileResolver 2) .privateKey (keyFileWorld "ENCRYPTED:AAAA") (keyFileWorld "ENCRYPTED:BBBBBBBB") ∧
      (((keyFileResolver 2).health .privateKey : StateM World Health) (keyFileWorld "ENCRYPTED:BBBBBBBB")).1 =
        (((keyFileResolver 1).health .privateKey : StateM World Health) (keyFileWorld "ENCRYPTED:AAAA")).1 := by
  have hlike : (keyFileResolver 1).Resembles (keyFileResolver 2) .privateKey (keyFileWorld "ENCRYPTED:AAAA")
      (keyFileWorld "ENCRYPTED:BBBBBBBB") := by
    refine ⟨rfl, rfl, fun _ _ => rfl, fun _ _ => rfl, ?_, nofun, ?_⟩
    · intro path hpath
      obtain rfl : path = "k.pem" := List.mem_singleton.mp hpath
      rfl
    · have hopen (key : UInt8) : (keyFileResolver key).openFile "ENCRYPTED:AAAA" =
          .error (.envelope (.undecipherable ⟨Protector.keyFiles, .truncated⟩)) := by rfl
      have hopen' (key : UInt8) : (keyFileResolver key).openFile "ENCRYPTED:BBBBBBBB" =
          .error (.envelope (.undecipherable ⟨Protector.keyFiles, .truncated⟩)) := by rfl
      have hsame : (keyFileResolver 1).SameText (keyFileResolver 2) "ENCRYPTED:AAAA" "ENCRYPTED:BBBBBBBB" :=
        ⟨by decide, by decide, fun _ failure => by rw [hopen, hopen']⟩
      intro hit hhit
      obtain rfl : Hit.keyFile "k.pem" (.ok "ENCRYPTED:AAAA") = hit := Option.some.inj hhit.findSome?
      exact hsame
  exact ⟨hlike, health_eq_of_resembles hlike⟩

end Resolver

end SealedConfig
