import ApiCodec.Document.Catalog
import ApiCodec.Document.Text

set_option autoImplicit false

namespace ApiCodec

open Document Shape

namespace Shape

variable {α β : Type}

theorem Gather.apply_eq_ok {f : Gather (α → β)} {a : Gather α} {b : β}
    (success : (f.apply a).run = .ok b) : ∃ g x, b = g x ∧ f.run = .ok g ∧ a.run = .ok x := by
  unfold Gather.apply at success
  cases left : f.run with
  | error e =>
      cases right : a.run with
      | error e' =>
          rw [left, right] at success
          cases success
      | ok x =>
          rw [left, right] at success
          cases success
  | ok g =>
      cases right : a.run with
      | error e' =>
          rw [left, right] at success
          cases success
      | ok x =>
          rw [left, right] at success
          exact ⟨g, x, (Except.ok.inj success).symm, rfl, rfl⟩

theorem Gather.seq_eq_ok {f : Gather (α → β)} {a : Gather α} {b : β}
    (success : (f <*> a).run = .ok b) : ∃ g x, b = g x ∧ f.run = .ok g ∧ a.run = .ok x :=
  Gather.apply_eq_ok success

theorem Gather.map_eq_ok {f : α → β} {a : Gather α} {b : β} (success : (f <$> a).run = .ok b) :
    ∃ x, a.run = .ok x ∧ b = f x := by
  obtain ⟨g, x, rfl, same, read⟩ := Gather.apply_eq_ok success
  cases Except.ok.inj same
  exact ⟨x, read, rfl⟩

theorem Record.finish_eq_ok {whole : Json} {r : Record whole} {fields : Gather α} {a : α}
    (success : r.finish fields = .ok a) : fields.run = .ok a := by
  unfold Record.finish at success
  split at success
  · cases success
  · rename_i b read
    rw [read]
    split at success
    · split at success
      · cases success
      · cases Except.ok.inj success
        rfl
    · cases Except.ok.inj success
      rfl

theorem nodup_keys_mapOf {value : Json} {read : PartReader value α} {entries : List (String × α)}
    (success : mapOf value read = .ok entries) : (Assoc.keys entries).Nodup := by
  unfold mapOf at success
  split at success
  · unfold Except.map at success
    split at success
    · cases success
    · cases Except.ok.inj success
      exact Assoc.nodup_keys_ofList _
  · cases success

/-- A field with a value of its own has that, or what is read. -/
theorem Record.defaulted_eq_ok {whole : Json} {r : Record whole} {name : String} {value a : α}
    {read : PartReader whole α} (success : (r.defaulted name value read).run = .ok a) :
    a = value ∨ ∃ part smaller, read part smaller = .ok a := by
  unfold Record.defaulted at success
  split at success
  · rename_i place part _
    unfold Record.readAt at success
    split at success
    · rename_i found
      cases Except.ok.inj success
      exact Or.inr ⟨part.1, part.2, found⟩
    · cases success
  · cases Except.ok.inj success
    exact Or.inl rfl

theorem Record.nodup_keys_map {whole : Json} {r : Record whole} {name : String}
    {read : PartReader whole α} {entries : List (String × α)}
    (success : (r.map name read).run = .ok entries) : (Assoc.keys entries).Nodup := by
  rcases Record.defaulted_eq_ok success with rfl | ⟨part, smaller, found⟩
  · exact List.nodup_nil
  · exact nodup_keys_mapOf found

end Shape

theorem nodup_keys_of_readSwagger {value : Json} {doc : Swagger}
    (success : Swagger.read value = .ok doc) : (Assoc.keys doc.definitions).Nodup := by
  unfold Swagger.read at success
  cases opened : record "SwaggerDocument" Swagger.names value with
  | error e =>
      rw [opened] at success
      cases success
  | ok r =>
      rw [opened] at success
      have fields := Record.finish_eq_ok success
      obtain ⟨_, tags, rfl, fields, _⟩ := Gather.seq_eq_ok fields
      obtain ⟨_, security, rfl, fields, _⟩ := Gather.seq_eq_ok fields
      obtain ⟨_, schemes, rfl, fields, _⟩ := Gather.seq_eq_ok fields
      obtain ⟨_, responses, rfl, fields, _⟩ := Gather.seq_eq_ok fields
      obtain ⟨_, parameters, rfl, fields, _⟩ := Gather.seq_eq_ok fields
      obtain ⟨_, definitions, rfl, fields, found⟩ := Gather.seq_eq_ok fields
      obtain ⟨_, paths, rfl, fields, _⟩ := Gather.seq_eq_ok fields
      obtain ⟨_, produces, rfl, fields, _⟩ := Gather.seq_eq_ok fields
      obtain ⟨_, consumes, rfl, fields, _⟩ := Gather.seq_eq_ok fields
      obtain ⟨_, uses, rfl, fields, _⟩ := Gather.seq_eq_ok fields
      obtain ⟨_, basePath, rfl, fields, _⟩ := Gather.seq_eq_ok fields
      obtain ⟨_, host, rfl, fields, _⟩ := Gather.seq_eq_ok fields
      obtain ⟨_, info, rfl, fields, _⟩ := Gather.seq_eq_ok fields
      obtain ⟨version, _, rfl⟩ := Gather.map_eq_ok fields
      exact Record.nodup_keys_map found

theorem nodup_keys_of_readComponents {value : Json} {components : Components}
    (success : Components.read value = .ok components) :
    (Assoc.keys components.schemas).Nodup := by
  unfold Components.read at success
  cases opened : record "Components" Components.names value with
  | error e =>
      rw [opened] at success
      cases success
  | ok r =>
      rw [opened] at success
      have fields := Record.finish_eq_ok success
      obtain ⟨_, schemes, rfl, fields, _⟩ := Gather.seq_eq_ok fields
      obtain ⟨_, bodies, rfl, fields, _⟩ := Gather.seq_eq_ok fields
      obtain ⟨_, parameters, rfl, fields, _⟩ := Gather.seq_eq_ok fields
      obtain ⟨_, responses, rfl, fields, _⟩ := Gather.seq_eq_ok fields
      obtain ⟨schemas, found, rfl⟩ := Gather.map_eq_ok fields
      exact Record.nodup_keys_map found

theorem nodup_keys_of_readOpenApi {value : Json} {doc : OpenApi}
    (success : OpenApi.read value = .ok doc) : (Assoc.keys doc.components.schemas).Nodup := by
  unfold OpenApi.read at success
  cases opened : record "OpenApiDocument" OpenApi.names value with
  | error e =>
      rw [opened] at success
      cases success
  | ok r =>
      rw [opened] at success
      have fields := Record.finish_eq_ok success
      obtain ⟨_, security, rfl, fields, _⟩ := Gather.seq_eq_ok fields
      obtain ⟨_, tags, rfl, fields, _⟩ := Gather.seq_eq_ok fields
      obtain ⟨_, components, rfl, fields, found⟩ := Gather.seq_eq_ok fields
      obtain ⟨_, paths, rfl, fields, _⟩ := Gather.seq_eq_ok fields
      obtain ⟨_, servers, rfl, fields, _⟩ := Gather.seq_eq_ok fields
      obtain ⟨_, info, rfl, fields, _⟩ := Gather.seq_eq_ok fields
      obtain ⟨version, _, rfl⟩ := Gather.map_eq_ok fields
      rcases Record.defaulted_eq_ok found with rfl | ⟨value, smaller, read⟩
      · exact List.nodup_nil
      · exact nodup_keys_of_readComponents read

/-- A document that was read declares each name once. -/
theorem nodup_keys_definitions {value : Json} {document : Document}
    (success : Document.ofJson value = .ok document) :
    (Assoc.keys (Catalog.ofDocument document).definitions).Nodup := by
  unfold Document.ofJson at success
  split at success
  · cases success
  · simp only at success
    split at success
    · split at success
      · rename_i doc read
        cases Except.ok.inj success
        exact nodup_keys_of_readSwagger read
      · cases success
    · split at success
      · rename_i doc read
        cases Except.ok.inj success
        exact nodup_keys_of_readOpenApi read
      · cases success

end ApiCodec
