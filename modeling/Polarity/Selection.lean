/-!
# Items at places

`itemsAt table places` are the items of a table at the given places, in the order
of the places and with repetition.  Every place must be one of the table; who
asks for places shows that they are.
-/

namespace Polarity

variable {α : Type}

def itemsAt (table : Array α) (places : List Nat) (hplaces : ∀ place ∈ places, place < table.size) :
    List α :=
  places.pmap (fun place (hplace : place < table.size) => table[place]) hplaces

@[simp] theorem length_itemsAt {table : Array α} {places : List Nat}
    (hplaces : ∀ place ∈ places, place < table.size) :
    (itemsAt table places hplaces).length = places.length :=
  List.length_pmap

theorem mem_of_mem_itemsAt {items : List α} {places : List Nat} {item : α}
    {hplaces : ∀ place ∈ places, place < items.toArray.size}
    (hitem : item ∈ itemsAt items.toArray places hplaces) : item ∈ items := by
  obtain ⟨place, hplace, rfl⟩ := List.mem_pmap.mp hitem
  exact List.getElem_mem _

end Polarity
