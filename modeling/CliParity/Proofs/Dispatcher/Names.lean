import CliParity.Dispatcher.Extraction

/-!
# The names of the commands of a dispatcher

A name that was met is dropped, so no two commands of a dispatcher have one name
(`nodup_names_extract`).
-/

set_option autoImplicit false

namespace CliParity.Dispatcher

/-- What is kept is new, and new once. -/
theorem names_firstOfEachName (seen : List String) (commands : List Command) :
    ((firstOfEachName seen commands).map Command.name).Nodup ∧
      ∀ c ∈ firstOfEachName seen commands, c.name ∉ seen := by
  induction commands generalizing seen with
  | nil => simp [firstOfEachName]
  | cons c commands ih =>
    rw [firstOfEachName]
    split
    · exact ih seen
    · rename_i hc
      obtain ⟨hd, hn⟩ := ih (c.name :: seen)
      refine ⟨List.nodup_cons.2 ⟨fun hm => ?_, hd⟩, fun d hd' => ?_⟩
      · obtain ⟨d, hd', he⟩ := List.mem_map.1 hm
        exact hn d hd' (he ▸ List.mem_cons_self)
      · rcases List.mem_cons.1 hd' with rfl | hd'
        · exact hc
        · exact fun hs => hn d hd' (List.mem_cons_of_mem _ hs)

theorem nodup_names_extract (settings : Settings) (source : String) :
    ((extract settings source).map Command.name).Nodup :=
  (names_firstOfEachName [] _).1

end CliParity.Dispatcher
