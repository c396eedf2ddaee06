import Collections.Entries.Grouping
import Collections.Entries.Ranking
import Collections.Entries.Selection
import Collections.Entries.Text

/-! Reads of a bag's entries: selecting, grouping, ranking and writing them out. -/
