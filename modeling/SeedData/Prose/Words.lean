/-
Lists of texts to choose from. A word list has a first text, so that there is
always one to choose. Here are the words of filler sentences, and what the names
of companies, hosts and telephone lines are made of.
-/
import SeedData.Random.Draw

namespace SeedData

/-- Texts to choose from, one at least. -/
structure Wordlist where
  first : String
  others : Array String

namespace Wordlist

def size (w : Wordlist) : Nat := w.others.size + 1

/-- The text at a place; past the end, the first. -/
def get (w : Wordlist) : Nat → String
  | 0 => w.first
  | i + 1 => w.others.getD i w.first

/-- One of the texts, each with equal chances. -/
def choose (w : Wordlist) : Draw String := do return w.get (← Draw.below w.size)

end Wordlist

namespace Prose

/-- Forms of telephone numbers; a number sign stands for a digit, and a caret for one
that is not zero. -/
def phoneFormats : Wordlist := ⟨"(^##) ###-#### x###", #[
  "(^##) ###-#### x####", "(^##) ###-#### x#####", "(^##) ###-####", "1-^##-###-#### x###",
  "1-^##-###-#### x####", "1-^##-###-#### x#####", "1-^##-###-####", "^##-###-#### x###",
  "^##-###-#### x####", "^##-###-#### x#####", "^##-###-####", "^##.###.#### x###",
  "^##.###.#### x####", "^##.###.#### x#####", "^##.###.####"]⟩

/-- What the name of a company can end with. -/
def companySuffixes : Wordlist := ⟨"Inc", #[
  "and Sons", "LLC", "Group"]⟩

def domainSuffixes : Wordlist := ⟨"com", #[
  "biz", "info", "name", "net", "org", "io", "co"]⟩

def mailSuffixes : Wordlist := ⟨"com", #[
  "net", "org"]⟩

/-- Words of filler sentences; some come more often than others. -/
def words : Wordlist := ⟨"alias", #[
  "consequatur", "aut", "perferendis", "sit", "voluptatem", "accusantium", "doloremque", "aperiam",
  "eaque", "ipsa", "quae", "ab", "illo", "inventore", "veritatis", "et", "quasi", "architecto",
  "beatae", "vitae", "dicta", "sunt", "explicabo", "aspernatur", "aut", "odit", "aut", "fugit",
  "sed", "quia", "consequuntur", "magni", "dolores", "eos", "qui", "ratione", "voluptatem",
  "sequi", "nesciunt", "neque", "dolorem", "ipsum", "quia", "dolor", "sit", "amet", "consectetur",
  "adipisci", "velit", "sed", "quia", "non", "numquam", "eius", "modi", "tempora", "incidunt",
  "ut", "labore", "et", "dolore", "magnam", "aliquam", "quaerat", "voluptatem", "ut", "enim", "ad",
  "minima", "veniam", "quis", "nostrum", "exercitationem", "ullam", "corporis", "nemo", "enim",
  "ipsam", "voluptatem", "quia", "voluptas", "sit", "suscipit", "laboriosam", "nisi", "ut",
  "aliquid", "ex", "ea", "commodi", "consequatur", "quis", "autem", "vel", "eum", "iure",
  "reprehenderit", "qui", "in", "ea", "voluptate", "velit", "esse", "quam", "nihil", "molestiae",
  "et", "iusto", "odio", "dignissimos", "ducimus", "qui", "blanditiis", "praesentium",
  "laudantium", "totam", "rem", "voluptatum", "deleniti", "atque", "corrupti", "quos", "dolores",
  "et", "quas", "molestias", "excepturi", "sint", "occaecati", "cupiditate", "non", "provident",
  "sed", "ut", "perspiciatis", "unde", "omnis", "iste", "natus", "error", "similique", "sunt",
  "in", "culpa", "qui", "officia", "deserunt", "mollitia", "animi", "id", "est", "laborum", "et",
  "dolorum", "fuga", "et", "harum", "quidem", "rerum", "facilis", "est", "et", "expedita",
  "distinctio", "nam", "libero", "tempore", "cum", "soluta", "nobis", "est", "eligendi", "optio",
  "cumque", "nihil", "impedit", "quo", "porro", "quisquam", "est", "qui", "minus", "id", "quod",
  "maxime", "placeat", "facere", "possimus", "omnis", "voluptas", "assumenda", "est", "omnis",
  "dolor", "repellendus", "temporibus", "autem", "quibusdam", "et", "aut", "consequatur", "vel",
  "illum", "qui", "dolorem", "eum", "fugiat", "quo", "voluptas", "nulla", "pariatur", "at", "vero",
  "eos", "et", "accusamus", "officiis", "debitis", "aut", "rerum", "necessitatibus", "saepe",
  "eveniet", "ut", "et", "voluptates", "repudiandae", "sint", "et", "molestiae", "non",
  "recusandae", "itaque", "earum", "rerum", "hic", "tenetur", "a", "sapiente", "delectus", "ut",
  "aut", "reiciendis", "voluptatibus", "maiores", "doloribus", "asperiores", "repellat"]⟩

end Prose
end SeedData
